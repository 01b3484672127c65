/-
The values that a match picks out, in order.

* `Bindings` — the values, and for every name the place of the first value bound under it;
* `Bindings.push` — one more value;
* `Bindings.pushNamed` — one more value under a name, refused if the name stands for another;
* `Bindings.get?` — the value that a name stands for.

Design notes: a name keeps the place of the first value bound under it.  That there is such a place
is part of the type, so a name that is known always stands for a value.
-/
import StructuralMatching.Value.Basic

namespace StructuralMatching

/-- Values in the order in which they were bound, and the places of the names. -/
structure Bindings where
  values : List Value
  names : List (String × Nat)
  /-- Every name stands for one of the values. -/
  place_lt : ∀ entry ∈ names, entry.2 < values.length

namespace Bindings

def empty : Bindings := ⟨[], [], by simp⟩

instance : Inhabited Bindings := ⟨empty⟩

def size (out : Bindings) : Nat := out.values.length

def isEmpty (out : Bindings) : Bool := out.values.isEmpty

/-- One more value. -/
def push (out : Bindings) (value : Value) : Bindings :=
  ⟨out.values ++ [value], out.names, fun entry h => by
    have := out.place_lt entry h
    simp only [List.length_append, List.length_singleton]
    omega⟩

/-- One more value, with a name that stood for nothing. -/
def pushFirst (out : Bindings) (name : String) (value : Value) : Bindings :=
  ⟨out.values ++ [value], (name, out.values.length) :: out.names, fun entry h => by
    simp only [List.length_append, List.length_singleton]
    rcases List.mem_cons.mp h with rfl | h
    · exact Nat.lt_succ_self _
    · have := out.place_lt entry h
      omega⟩

/-- The value that a name stands for: the first one bound under it. -/
def get? (out : Bindings) (name : String) : Option Value :=
  (out.names.lookup name).bind fun i => out.values[i]?

/-- One more value under a name.  If the name stands for a value that is not equal to it, the
answer is `false` and nothing changes. -/
def pushNamed (out : Bindings) (name : String) (value : Value) : Bool × Bindings :=
  match out.names.lookup name with
  | some i =>
    if out.values[i]? == some value then (true, out.push value) else (false, out)
  | none => (true, out.pushFirst name value)

end Bindings

end StructuralMatching
