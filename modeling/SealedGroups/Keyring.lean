import SealedGroups.Hash.Hkdf
import SealedGroups.Schnorr
import SealedGroups.ServiceId
import SealedGroups.Cipher.Aead
import SealedGroups.Cbor.Fields

/-!
# The keys of a group

All keys of a group are derived from one master key that its members share. The server learns the
public parameters only: the identifier of the group and the key that presentations are checked with.

The module also gathers what can go wrong when values are encrypted, decrypted or checked under
these keys.
-/

namespace SealedGroups

/-- Why a value cannot be encrypted, decrypted or checked. -/
inductive SealingError where
  /-- A ciphertext, proof or signature does not fit the keys. -/
  | verificationFailed
  | invalidLength (expected actual : Nat)
  | serviceId (error : ServiceId.Error)
  | aead (error : Aead.Error)
  | decode (error : Cbor.Error)
deriving DecidableEq

def SealingError.message : SealingError → String
  | .verificationFailed => "verification failed"
  | .invalidLength expected actual =>
    s!"invalid length: expected {expected} bytes, got {actual}"
  | .serviceId error => error.message
  | .aead error => error.message
  | .decode error => error.message

/-- A fixed-size value out of bytes of unknown length. -/
def fixedSize (n : Nat) (bytes : Bytes) : Except SealingError (Octets n) :=
  match Octets.ofList? n bytes with
  | some value => .ok value
  | none => .error (.invalidLength n bytes.length)

theorem fixedSize_eq_ok_iff {n : Nat} {bytes : Bytes} {value : Octets n} :
    fixedSize n bytes = .ok value ↔ value.toList = bytes := by
  unfold fixedSize
  rw [← Octets.ofList?_eq_some_iff]
  cases Octets.ofList? n bytes <;> simp

@[simp] theorem fixedSize_toList {n : Nat} (value : Octets n) :
    fixedSize n value.toList = .ok value :=
  fixedSize_eq_ok_iff.2 rfl

/-- Checks a signature; whatever is wrong with it, it does not verify. -/
def verifySignature (G : Curve) (key : Schnorr.VerifyingKey) (message : Bytes)
    (signature : Schnorr.Signature) : Except SealingError Unit :=
  match Schnorr.verify G key message signature with
  | .ok () => .ok ()
  | .error _ => .error .verificationFailed

/-! ### Profile keys -/

/-- The key a person's profile is encrypted with, shared with the groups they are in. -/
abbrev ProfileKey := Octets 32

namespace ProfileKey

def commitmentLabel : Bytes := utf8 "groups-zk profile key commitment"

/-- What the server may know about a profile key. -/
def commitment (key : ProfileKey) : Octets 32 :=
  sha256 (commitmentLabel ++ key.toList)

/-- The text shown in place of a profile key. -/
def redacted (_ : ProfileKey) : String :=
  "ProfileKey(Secret \x7b value: \"***\" \x7d)"

end ProfileKey

/-! ### Group keys -/

structure PublicParams where
  identifier : Octets 32
  verifyingKey : Schnorr.VerifyingKey
deriving DecidableEq

namespace PublicParams

def toOctets (params : PublicParams) : Octets 64 :=
  params.identifier.append params.verifyingKey

def ofBytes (bytes : Bytes) : Except SealingError PublicParams := do
  let octets ← fixedSize (32 + 32) bytes
  return ⟨octets.left 32, octets.right 32⟩

/-- The parameters as a map of their two parts. -/
def toCbor (params : PublicParams) : Bytes :=
  Cbor.writeMap [("group_identifier", .octets params.identifier.toList),
    ("verifying_key", .octets params.verifyingKey.toList)]

end PublicParams

/-- All keys of a group. -/
structure Keyring where
  masterKey : Octets 32
  identifier : Octets 32
  identityKey : Aead.Key
  identityNonceKey : Octets 32
  profileKeyKey : Aead.Key
  profileKeyNonceKey : Octets 32
  blobKey : Aead.Key
  signingKey : Schnorr.SigningKey
deriving DecidableEq

namespace Keyring

def salt : Bytes := utf8 "groups-zk group secret params"

/-- The bytes derived for a purpose. -/
def part (n : Nat) (masterKey : Octets 32) (purpose : String) : Octets n :=
  Hkdf.derive n salt masterKey.toList (utf8 purpose)

def derive (masterKey : Octets 32) : Keyring where
  masterKey
  identifier := part 32 masterKey "group identifier"
  identityKey := part 32 masterKey "uid encryption key"
  identityNonceKey := part 32 masterKey "uid synthetic iv key"
  profileKeyKey := part 32 masterKey "profile key encryption key"
  profileKeyNonceKey := part 32 masterKey "profile key synthetic iv key"
  blobKey := part 32 masterKey "attribute blob key"
  signingKey := .ofWide (part 64 masterKey "group signing key")

def generate (rng : Random) : Keyring × Random :=
  let (masterKey, rng) := rng.draw 32
  (derive masterKey, rng)

def publicParams (G : Curve) (keys : Keyring) : PublicParams :=
  ⟨keys.identifier, Schnorr.verifyingKey G keys.signingKey⟩

end Keyring

end SealedGroups
