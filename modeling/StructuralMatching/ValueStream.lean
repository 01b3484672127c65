/-
Sequences of values that are made on demand.

* `ValueStream` — a sequence, by what stands at each of its positions;
* `ValueStream.take` — its first values.
-/
import StructuralMatching.Value.Basic

namespace StructuralMatching

/-- A sequence of values, which ends at the first position without one. -/
structure ValueStream where
  get? : Nat → Option Value

namespace ValueStream

/-- The values from position `i` on, at most `n` of them. -/
def takeFrom (s : ValueStream) (i : Nat) : Nat → List Value
  | 0 => []
  | n + 1 =>
    match s.get? i with
    | some v => v :: takeFrom s (i + 1) n
    | none => []

/-- The first `n` values, or all if there are fewer. -/
def take (s : ValueStream) (n : Nat) : List Value := s.takeFrom 0 n

def empty : ValueStream := ⟨fun _ => none⟩

/-- One value for ever. -/
def constant (v : Value) : ValueStream := ⟨fun _ => some v⟩

def ofList (vs : List Value) : ValueStream := ⟨fun i => vs[i]?⟩

/-- The integers from `n` on, up to but without the largest one. -/
def integersFrom (n : Int64) : ValueStream :=
  ⟨fun i =>
    let k : Int := n.toInt + i
    if k < Int64.maxValue.toInt then some (.int (Int64.ofInt k)) else none⟩

end ValueStream

end StructuralMatching
