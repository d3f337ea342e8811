import SealedGroups.Octets

/-!
# Poly1305

A one-time authenticator: the message, cut into pieces of sixteen bytes, gives the coefficients of
a polynomial that is evaluated at a secret point modulo `2^130 - 5`. The arithmetic is on natural
numbers, so the definition is the formula.
-/

namespace SealedGroups.Poly1305

def modulus : Nat := (1 <<< 130) - 5

/-- The bits of the secret point that may be set. -/
def clamp : Nat := 0x0ffffffc0ffffffc0ffffffc0fffffff

/-- One step of the evaluation: a piece is read with a one byte above it. -/
def absorb (point accumulator : Nat) (piece : Bytes) : Nat :=
  (accumulator + natOfLE (piece ++ [1])) * point % modulus

/-- The tag of a message under a one-time key. -/
def tag (key : Octets 32) (message : Bytes) : Octets 16 :=
  let point := natOfLE (key.toList.take 16) &&& clamp
  let mask := natOfLE (key.toList.drop 16)
  .ofNatLE 16 ((pieces 16 message).foldl (absorb point) 0 + mask)

end SealedGroups.Poly1305
