/-
Patterns: descriptions of the shape of values.

* `Pattern` — the kinds of patterns;
* `Variable` — a binding site, with a name and a default if it has them;
* `Pattern.default?` — the value that stands in for a missing argument.

Design notes: a pattern is plain data, and not every pattern makes sense; which ones do is found
out when it is compiled.  The entries of `instanceOf` and `map` ascend by key.
-/
import StructuralMatching.Segment.Basic

namespace StructuralMatching

/-- A place that binds the value it meets. -/
structure Variable where
  name : Option String
  default : Option Value

namespace Variable

/-- A variable without name and default. -/
def unnamed : Variable := ⟨none, none⟩

/-- Whether the name begins with the ignore mark `_`; such a variable binds nothing. -/
def isIgnored (v : Variable) : Bool := v.name.any fun name => name.toList.head? == some '_'

/-- The name whose values have to agree. -/
def bindingName? (v : Variable) : Option String := if v.isIgnored then none else v.name

end Variable

/-- The shape of a value. -/
inductive Pattern where
  /-- Any value. -/
  | wildcard
  /-- Any value, which is bound. -/
  | var (v : Variable)
  /-- What the inner pattern matches; the whole value is bound after the inner parts. -/
  | capture (inner : Pattern)
  /-- A string that begins with `stem`; the rest of it is bound. -/
  | startsWith (stem : String)
  /-- A list that is not empty: its first item, and the list of all others. -/
  | headTail (head tail : Pattern)
  /-- A value equal to the given one. -/
  | bound (value : Value)
  /-- An instance of a class with at least the given fields. -/
  | instanceOf (tag : ClassTag) (fields : List (String × Pattern))
  /-- A byte sequence, cut into segments. -/
  | bitstring (segments : List Segment)
  /-- A constant: lists and maps match by shape, no value at all matches anything, and all other
  constants match what is equal to them. -/
  | literal (value : Value)
  /-- A list of the same length. -/
  | list (items : List Pattern)
  /-- A map or an instance with at least the given keys. -/
  | map (fields : List (String × Pattern))

namespace Pattern

instance : Inhabited Pattern := ⟨wildcard⟩

/-- The default of a variable. -/
def default? : Pattern → Option Value
  | var v => v.default
  | _ => none

end Pattern

end StructuralMatching
