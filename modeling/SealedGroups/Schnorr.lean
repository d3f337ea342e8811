import SealedGroups.Curve.Basic
import SealedGroups.Hash.Sha2
import SealedGroups.Random

/-!
# Schnorr signatures

A signature of a message is the encoding of a nonce point `R = r B` followed by the scalar
`s = r + h a`, where `a` is the signing key and `h` the hash of `R`, the verifying key and the
message. The nonce scalar is itself a hash of the signing key, the message and, where the caller has
randomness to add, 64 fresh bytes; without them the same message is always signed the same way.

Verifying recomputes `R` as `s B - h A` and compares encodings. The scalar has to be reduced, so a
signature has no second spelling.
-/

namespace SealedGroups.Schnorr

/-- Secret scalar of a key pair. -/
abbrev SigningKey := Scalar

/-- Encoded point of a key pair. -/
abbrev VerifyingKey := Octets 32

/-- `R` followed by `s`. -/
abbrev Signature := Octets 64

inductive Error where
  /-- The key is no point or the scalar is not reduced. -/
  | invalidArgument
  | verificationFailed
deriving DecidableEq

def Error.message : Error → String
  | .invalidArgument => "invalid schnorr verifying key or signature"
  | .verificationFailed => "signature does not match verifying key and bytes"

/-- A signature of unknown length. -/
def signatureOfBytes (bytes : Bytes) : Except Error Signature :=
  match Octets.ofList? 64 bytes with
  | some signature => .ok signature
  | none => .error .invalidArgument

def nonceLabel : Bytes := utf8 "groups-zk schnorr nonce"

def challengeLabel : Bytes := utf8 "groups-zk schnorr challenge"

/-- What is hashed into the nonce scalar. -/
def nonceInput (key : SigningKey) (message entropy : Bytes) : Bytes :=
  nonceLabel ++ key.toOctets.toList ++ message ++ entropy

/-- What is hashed into the challenge. -/
def challengeInput (nonce key : Octets 32) (message : Bytes) : Bytes :=
  challengeLabel ++ nonce.toList ++ key.toList ++ message

/-- The scalar a signature has to answer. -/
def challenge (nonce key : Octets 32) (message : Bytes) : Scalar :=
  .ofWide (sha512 (challengeInput nonce key message))

section

variable (G : Curve)

def verifyingKey (key : SigningKey) : VerifyingKey :=
  G.encodedMultiple key

/-- Signs with the given bytes mixed into the nonce. -/
def signWith (key : SigningKey) (message entropy : Bytes) : Signature :=
  let nonce := Scalar.ofWide (sha512 (nonceInput key message entropy))
  let encoded := G.encodedMultiple nonce
  let h := challenge encoded (verifyingKey G key) message
  encoded.append (nonce + h * key).toOctets

/-- Signs without randomness. -/
def sign (key : SigningKey) (message : Bytes) : Signature :=
  signWith G key message []

/-- Signs with 64 fresh bytes mixed into the nonce. -/
def signHedged (key : SigningKey) (message : Bytes) (rng : Random) : Signature × Random :=
  let (entropy, rng) := rng.draw 64
  (signWith G key message entropy.toList, rng)

def verify (key : VerifyingKey) (message : Bytes) (signature : Signature) : Except Error Unit :=
  match G.decompress? key with
  | none => .error .invalidArgument
  | some A =>
    let nonce := Octets.left (n := 32) 32 signature
    match Scalar.ofCanonical? (Octets.right 32 signature) with
    | none => .error .invalidArgument
    | some s =>
      let h := challenge nonce key message
      let expected := G.add (G.mul s.value G.base) (G.mul (-h).value A)
      if G.compress expected = nonce then .ok () else .error .verificationFailed

end

end SealedGroups.Schnorr
