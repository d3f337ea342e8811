import SealedGroups.Curve.Scalar

/-!
# The group behind signatures

Signatures, credentials and presentations need very little of an elliptic curve: a base point, sums,
multiples, and a 32-byte encoding of points. A `Curve` is these operations and nothing else, and all
that is built on signatures takes one as a value. `Ristretto.curve` is the one used in practice.

A point may have several representations in memory (projective coordinates, cosets); two of them
stand for the same group element exactly when they are compressed to the same bytes.
-/

namespace SealedGroups

/-- The group operations signatures are made with. -/
structure Curve where
  Point : Type
  base : Point
  add : Point → Point → Point
  mul : Nat → Point → Point
  compress : Point → Octets 32
  decompress? : Octets 32 → Option Point

namespace Curve

/-- The encoding of a multiple of the base point. -/
def encodedMultiple (G : Curve) (a : Scalar) : Octets 32 :=
  G.compress (G.mul a.value G.base)

end Curve

end SealedGroups
