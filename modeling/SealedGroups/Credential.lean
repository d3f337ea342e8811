import SealedGroups.Sealing

/-!
# Credentials and presentations

The server signs that an account has a profile key until some time: a credential. To enter a group,
or to change their profile key in it, a member presents the credential: account and profile key are
encrypted for the group, and a signature under the group's own key ties both ciphertexts and the
expiration together. The credential is checked when it is presented and nothing of it goes into the
presentation, so a presentation shows that it was made by someone who holds the group's keys.

Both are exchanged as maps with named fields.
-/

namespace SealedGroups

/-- A server-signed binding of an account to its profile key. -/
structure Credential where
  aci : Uuid
  profileKey : ProfileKey
  /-- Seconds since the Unix epoch. -/
  expiration : UInt64
  signature : Schnorr.Signature
deriving DecidableEq

/-- An encrypted account and profile key with the proof that ties them to the group. -/
structure Presentation where
  identity : IdentityCiphertext
  profileKey : ProfileKeyCiphertext
  expiration : UInt64
  proof : Schnorr.Signature
deriving DecidableEq

/-! ### What is signed -/

def credentialLabel : Bytes := utf8 "groups-zk expiring profile key credential"

def presentationLabel : Bytes := utf8 "groups-zk profile key credential presentation"

/-- What the server signs in a credential. -/
def credentialMessage (aci : Uuid) (profileKey : ProfileKey) (expiration : UInt64) : Bytes :=
  credentialLabel ++ aci.toList ++ profileKey.commitment.toList ++ bytesBE 8 expiration.toNat

/-- What the proof of a presentation is made over. -/
def presentationTranscript (params : PublicParams) (identity : IdentityCiphertext)
    (profileKey : ProfileKeyCiphertext) (expiration : UInt64) : Bytes :=
  presentationLabel ++ params.toOctets.toList ++ identity.toList ++ profileKey.toList
    ++ bytesBE 8 expiration.toNat

/-! ### The server -/

/-- The server's key: it signs accepted changes and credentials. -/
structure Server where
  signingKey : Schnorr.SigningKey
deriving DecidableEq

namespace Server

def generate (rng : Random) : Server × Random :=
  let (wide, rng) := rng.draw 64
  (⟨.ofWide wide⟩, rng)

/-- The key that the server's signatures are checked with. -/
def publicKey (G : Curve) (server : Server) : Schnorr.VerifyingKey :=
  Schnorr.verifyingKey G server.signingKey

def notarise (G : Curve) (server : Server) (message : Bytes) (rng : Random) :
    Schnorr.Signature × Random :=
  Schnorr.signHedged G server.signingKey message rng

def issue (G : Curve) (server : Server) (aci : Uuid) (profileKey : ProfileKey)
    (expiration : UInt64) : Credential where
  aci
  profileKey
  expiration
  signature := Schnorr.sign G server.signingKey (credentialMessage aci profileKey expiration)

end Server

/-! ### Presenting and checking -/

def Credential.verify (G : Curve) (serverKey : Schnorr.VerifyingKey) (credential : Credential) :
    Except SealingError Unit :=
  verifySignature G serverKey
    (credentialMessage credential.aci credential.profileKey credential.expiration)
    credential.signature

/-- Presents a credential to the group that holds these keys. The same credential always gives the
same presentation. -/
def Credential.present (G : Curve) (serverKey : Schnorr.VerifyingKey) (keys : Keyring)
    (credential : Credential) : Except SealingError Presentation := do
  credential.verify G serverKey
  let identity := keys.sealIdentity (.aci credential.aci)
  let profileKey := keys.sealProfileKey credential.profileKey credential.aci
  let transcript :=
    presentationTranscript (keys.publicParams G) identity profileKey credential.expiration
  return {
    identity
    profileKey
    expiration := credential.expiration
    proof := Schnorr.sign G keys.signingKey transcript }

/-- Checks the proof of a presentation against the group it claims to belong to. -/
def Presentation.verify (G : Curve) (params : PublicParams) (presentation : Presentation) :
    Except SealingError Unit :=
  verifySignature G params.verifyingKey
    (presentationTranscript params presentation.identity presentation.profileKey
      presentation.expiration)
    presentation.proof

/-! ### As bytes -/

namespace Credential

def fields : List (String × Cbor.Kind) :=
  [("aci", .string 16), ("profile_key", .octets 32), ("expiration", .number),
    ("signature", .octets 64)]

def entries (credential : Credential) : List Cbor.Entry :=
  [("aci", .octets credential.aci.toList),
    ("profile_key", .octets credential.profileKey.toList),
    ("expiration", .number credential.expiration),
    ("signature", .octets credential.signature.toList)]

def toBytes (credential : Credential) : Bytes :=
  Cbor.writeMap credential.entries

def ofEntries (entries : List Cbor.Entry) : Except Cbor.Error Credential := do
  return {
    aci := ← Cbor.octets entries "aci" 16
    profileKey := ← Cbor.octets entries "profile_key" 32
    expiration := ← Cbor.number entries "expiration"
    signature := ← Cbor.octets entries "signature" 64 }

def ofBytes (bytes : Bytes) : Except Cbor.Error Credential := do
  ofEntries (← Cbor.readMap fields bytes)

end Credential

namespace Presentation

def fields : List (String × Cbor.Kind) :=
  [("uid_ciphertext", .octets 57), ("profile_key_ciphertext", .octets 72),
    ("expiration", .number), ("proof", .octets 64)]

def entries (presentation : Presentation) : List Cbor.Entry :=
  [("uid_ciphertext", .octets presentation.identity.toList),
    ("profile_key_ciphertext", .octets presentation.profileKey.toList),
    ("expiration", .number presentation.expiration),
    ("proof", .octets presentation.proof.toList)]

def toBytes (presentation : Presentation) : Bytes :=
  Cbor.writeMap presentation.entries

def ofEntries (entries : List Cbor.Entry) : Except Cbor.Error Presentation := do
  return {
    identity := ← Cbor.octets entries "uid_ciphertext" 57
    profileKey := ← Cbor.octets entries "profile_key_ciphertext" 72
    expiration := ← Cbor.number entries "expiration"
    proof := ← Cbor.octets entries "proof" 64 }

def ofBytes (bytes : Bytes) : Except Cbor.Error Presentation := do
  ofEntries (← Cbor.readMap fields bytes)

end Presentation

end SealedGroups
