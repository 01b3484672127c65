/-
Patterns by their descriptions.

* `PatternKind` — the kinds of patterns that can be described, with their names and fields;
* `Pattern.ofDescription?` — the pattern that a tree describes, if it describes one;
* `Pattern.ofJson?` — the pattern that a JSON tree describes.

Design notes: a description is a mapping whose `type` names the kind, or a sequence that begins with
the kind and goes on with the fields.  A description within a description may also give the number
of its kind.  Trees are read from the bottom up: for every tree it is found out what it means as a
pattern, as a list of patterns, and as the fields of a map, and the tree around it uses what it
needs.
-/
import StructuralMatching.Config.Segment
import StructuralMatching.Pattern

namespace StructuralMatching

/-- A kind of patterns that can be described. -/
inductive PatternKind where
  | wildcard
  | var
  | capture
  | startsWith
  | headTail
  | bound
  | literal
  | list
  | map
  | bitstring
deriving DecidableEq, Repr

namespace PatternKind

/-- All kinds, in the order of their numbers. -/
def all : List PatternKind :=
  [wildcard, var, capture, startsWith, headTail, bound, literal, list, map, bitstring]

def name : PatternKind → String
  | wildcard => "wildcard"
  | var => "variable"
  | capture => "capture"
  | startsWith => "starts_with"
  | headTail => "head_tail"
  | bound => "bound"
  | literal => "literal"
  | list => "list"
  | map => "map"
  | bitstring => "bitstring"

/-- The declared fields of a kind. -/
def fieldNames : PatternKind → List String
  | wildcard => []
  | var => ["name", "default"]
  | capture => ["pattern"]
  | startsWith => ["prefix"]
  | headTail => ["head", "tail"]
  | bound => ["value"]
  | literal => ["value"]
  | list => ["items"]
  | map => ["fields"]
  | bitstring => ["segments"]

/-- The kind that a tree gives by its name or its number. -/
def ofDescription? (d : Description) : Option PatternKind :=
  (d.choiceIndex? (all.map name)).bind fun i => all[i]?

end PatternKind

namespace Config

/-- What a tree means in the places where a description may hold it. -/
structure Meaning where
  description : Description
  pattern? : Option Pattern
  patterns? : Option (List Pattern)
  fields? : Option (List (String × Pattern))

namespace Meaning

def isNull (m : Meaning) : Bool := m.description.isNull

def text? (m : Meaning) : Option String := m.description.asText?

def value? (m : Meaning) : Option Value := Value.ofDescription? m.description

def segments? (m : Meaning) : Option (List Segment) :=
  m.description.asItems?.bind fun items => items.mapM Segment.ofDescription?

end Meaning

/-- The pattern of a kind with the given fields. -/
def patternOfFields? : PatternKind → List (Option Meaning) → Option Pattern
  | .wildcard, [] => some .wildcard
  | .var, [name, default] => do
    let name ← optional? Meaning.isNull Meaning.text? name
    let default ← optional? Meaning.isNull Meaning.value? default
    return .var ⟨name, default⟩
  | .capture, [inner] => return .capture (← required? Meaning.pattern? inner)
  | .startsWith, [stem] => return .startsWith (← required? Meaning.text? stem)
  | .headTail, [head, tail] => do
    let head ← optional? Meaning.isNull Meaning.pattern? head
    let tail ← optional? Meaning.isNull Meaning.pattern? tail
    return .headTail (head.getD (.var .unnamed)) (tail.getD (.var .unnamed))
  | .bound, [value] => return .bound (← required? Meaning.value? value)
  | .literal, [value] => return .literal (← required? Meaning.value? value)
  | .list, [items] => return .list (← required? Meaning.patterns? items)
  | .map, [fields] => return .map (Fields.ofList (← required? Meaning.fields? fields))
  | .bitstring, [segments] => return .bitstring (← required? Meaning.segments? segments)
  | _, _ => none

/-- The key under which an object gives the kind. -/
def kindKey : String := "type"

/-- The pattern that a mapping describes.  A kind without fields takes any other entries. -/
def patternOfEntries? (entries : List (Description × Meaning)) : Option Pattern :=
  match entries.filter (·.1.asText? == some kindKey) with
  | [tag] => do
    let kind ← PatternKind.ofDescription? tag.2.description
    if kind.fieldNames.isEmpty then patternOfFields? kind []
    else
      let others := entries.filter (·.1.asText? != some kindKey)
      patternOfFields? kind (← describedFields? kind.fieldNames others)
  | _ => none

/-- The pattern that a sequence describes. -/
def patternOfItems? : List Meaning → Option Pattern
  | [] => none
  | tag :: fields => do
    let kind ← PatternKind.ofDescription? tag.description
    patternOfFields? kind (← positionalFields kind.fieldNames fields)

/-- The patterns of a mapping by their keys, which have to be text. -/
def patternFields? (entries : List (Description × Meaning)) : Option (List (String × Pattern)) :=
  entries.mapM fun e => do return (← e.1.asText?, ← e.2.pattern?)

mutual

/-- What a tree means. -/
def meaning : Description → Meaning
  | .sequence items =>
    let ms := meanings items
    ⟨.sequence items, patternOfItems? ms, ms.mapM Meaning.pattern?, none⟩
  | .mapping entries =>
    let ms := meaningsOfEntries entries
    ⟨.mapping entries, patternOfEntries? ms, none, patternFields? ms⟩
  | d => ⟨d, none, none, none⟩
termination_by structural d => d

def meanings : List Description → List Meaning
  | [] => []
  | d :: ds => meaning d :: meanings ds
termination_by structural ds => ds

def meaningsOfEntries : List (Description × Description) → List (Description × Meaning)
  | [] => []
  | (key, d) :: entries => (key, meaning d) :: meaningsOfEntries entries
termination_by structural entries => entries

end

/-- Whether a tree gives its kind by its name. -/
def namesKind : Description → Bool
  | .mapping entries => entries.all fun e =>
      e.1.asText? != some kindKey || e.2.asText?.isSome
  | .sequence (tag :: _) => tag.asText?.isSome
  | _ => false

end Config

/-- The pattern that a tree describes. -/
def Pattern.ofDescription? (d : Description) : Option Pattern :=
  if Config.namesKind d then (Config.meaning d).pattern? else none

/-- The pattern that a JSON tree describes. -/
def Pattern.ofJson? (j : Json) : Option Pattern := Pattern.ofDescription? j.describe

end StructuralMatching
