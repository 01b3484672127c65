/-
Powers of numbers.

There are two ways to read `2 ^ n` as soon as algebra is at hand: as a power of numbers, and as one
of any monoid.  Inside of this library it is always the first.

Design notes: powers of monoids are the default where they are known, so the priorities below have
to be higher than theirs.
-/

namespace StructuralMatching

@[default_instance 20000]
scoped instance (priority := 2000) powOfNatPow {M : Type} [NatPow M] : Pow M Nat := instPowNat

end StructuralMatching
