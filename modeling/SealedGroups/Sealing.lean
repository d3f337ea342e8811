import SealedGroups.Keyring

/-!
# Encrypting identities, profile keys and blobs

Identities and profile keys have one ciphertext each in a group: the nonce is a keyed hash of the
plaintext, and opening recomputes it. The server can therefore tell whether two ciphertexts hide the
same person without learning who it is, and nobody can make a second ciphertext of the same person.
Blobs, which hold the attributes of a group, are encrypted under a fresh random nonce each time.

Everything is bound to the group by its identifier as associated data, a profile key also to its
owner.
-/

namespace SealedGroups

/-- An encrypted service id: nonce, ciphertext and tag. -/
abbrev IdentityCiphertext := Octets 57

/-- An encrypted profile key: nonce, ciphertext and tag. -/
abbrev ProfileKeyCiphertext := Octets 72

namespace Keyring

def identityLabel : Bytes := utf8 "groups-zk uid siv"

def profileKeyLabel : Bytes := utf8 "groups-zk profile key siv"

/-- The nonce that belongs to a plaintext. -/
def syntheticNonce (plaintext : Bytes) : Aead.Nonce :=
  Octets.left (n := 8) 24 (sha256 plaintext)

/-- A nonce followed by what was encrypted under it. -/
def sealedUnder (key : Aead.Key) (nonce : Aead.Nonce) (aad : Bytes) {n : Nat}
    (plaintext : Octets n) : Octets (24 + (n + 16)) :=
  nonce.append ⟨Aead.sealed key nonce aad plaintext.toList, by simp⟩

/-- Undoes `sealedUnder`: the nonce and the plaintext, if the tag is right. -/
def openUnder (key : Aead.Key) (aad : Bytes) {n : Nat} (ciphertext : Octets (24 + (n + 16))) :
    Except SealingError (Aead.Nonce × Octets n) :=
  let nonce := ciphertext.left 24
  match Aead.decrypt key nonce (some aad) (ciphertext.right 24).toList with
  | .error _ => .error .verificationFailed
  | .ok plaintext =>
    match Octets.ofList? n plaintext with
    | none => .error .verificationFailed
    | some plaintext => .ok (nonce, plaintext)

/-! ### Identities -/

def identityNonce (keys : Keyring) (plaintext : Octets 17) : Aead.Nonce :=
  syntheticNonce (identityLabel ++ keys.identityNonceKey.toList ++ plaintext.toList)

def sealIdentity (keys : Keyring) (id : ServiceId) : IdentityCiphertext :=
  let plaintext := id.toFixedWidth
  sealedUnder keys.identityKey (keys.identityNonce plaintext) keys.identifier.toList plaintext

def openIdentity (keys : Keyring) (ciphertext : IdentityCiphertext) :
    Except SealingError ServiceId := do
  let (nonce, plaintext) ← openUnder (n := 17) keys.identityKey keys.identifier.toList ciphertext
  if keys.identityNonce plaintext = nonce then
    match ServiceId.ofFixedWidth plaintext with
    | .ok id => return id
    | .error e => throw (.serviceId e)
  else throw .verificationFailed

/-! ### Profile keys -/

def profileKeyNonce (keys : Keyring) (aci : Uuid) (key : ProfileKey) : Aead.Nonce :=
  syntheticNonce (profileKeyLabel ++ keys.profileKeyNonceKey.toList ++ aci.toList ++ key.toList)

def profileKeyAad (keys : Keyring) (aci : Uuid) : Bytes :=
  keys.identifier.toList ++ aci.toList

/-- The ciphertext of an account's profile key in the group. -/
def sealProfileKey (keys : Keyring) (key : ProfileKey) (aci : Uuid) : ProfileKeyCiphertext :=
  sealedUnder keys.profileKeyKey (keys.profileKeyNonce aci key) (keys.profileKeyAad aci) key

def openProfileKey (keys : Keyring) (ciphertext : ProfileKeyCiphertext) (aci : Uuid) :
    Except SealingError ProfileKey := do
  let (nonce, key) ← openUnder (n := 32) keys.profileKeyKey (keys.profileKeyAad aci) ciphertext
  if keys.profileKeyNonce aci key = nonce then return key
  else throw .verificationFailed

/-! ### Blobs -/

/-- Bytes of a blob that holds nothing: nonce and tag. -/
def minBlobSize : Nat := Aead.nonceSize + Aead.tagSize

/-- Encrypts a blob under a fresh nonce. -/
def sealBlob (keys : Keyring) (plaintext : Bytes) (rng : Random) :
    Except SealingError Bytes × Random :=
  let (nonce, rng) := rng.draw 24
  match Aead.encrypt keys.blobKey nonce (some keys.identifier.toList) plaintext with
  | .ok ciphertext => (.ok (nonce.toList ++ ciphertext), rng)
  | .error e => (.error (.aead e), rng)

def openBlob (keys : Keyring) (blob : Bytes) : Except SealingError Bytes :=
  if h : minBlobSize ≤ blob.length then
    let nonce := Octets.first 24 blob (Nat.le_trans (by decide) h)
    match Aead.decrypt keys.blobKey nonce (some keys.identifier.toList) (blob.drop 24) with
    | .ok plaintext => .ok plaintext
    | .error _ => .error .verificationFailed
  else .error (.invalidLength minBlobSize blob.length)

end Keyring

end SealedGroups
