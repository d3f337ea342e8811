import SealedGroups.Credential
import SealedGroups.Proofs.Digests
import SealedGroups.Proofs.Encodings
import SealedGroups.Proofs.Sealing
import SealedGroups.Proofs.Signatures
import SealedGroups.Samples

/-!
# Credentials can be presented

A credential that the server issued passes the check that is made when it is presented, and what is
presented passes the check of the group: both are signatures, and both sides put together what is
signed from what they know themselves. The group then reads from a presentation whose it is and with
which profile key (`Credential.present_issue`).

The proof needs a lawful curve and nothing else; hashes and ciphers are computed.
-/

namespace SealedGroups

variable {G : Curve} {IsLog : G.Point → ZMod Scalar.order → Prop}

theorem verifySignature_eq_ok_iff {key : Schnorr.VerifyingKey} {message : Bytes}
    {signature : Schnorr.Signature} :
    verifySignature G key message signature = .ok () ↔
      Schnorr.verify G key message signature = .ok () := by
  unfold verifySignature
  split
  · rename_i verified
    simp only [verified]
  · rename_i failed
    simp only [failed, reduceCtorEq]

/-- Signatures without randomness verify. -/
theorem verifySignature_sign (lawful : G.Lawful IsLog) (key : Schnorr.SigningKey)
    (message : Bytes) :
    verifySignature G (Schnorr.verifyingKey G key) message (Schnorr.sign G key message) = .ok () :=
  verifySignature_eq_ok_iff.2 (Schnorr.verify_signWith lawful key message [])

namespace Credential

/-- What is signed when a credential is presented. -/
def transcript (G : Curve) (keys : Keyring) (credential : Credential) : Bytes :=
  presentationTranscript (keys.publicParams G) (keys.sealIdentity (.aci credential.aci))
    (keys.sealProfileKey credential.profileKey credential.aci) credential.expiration

/-- What is shown of a credential to the group that holds these keys. -/
def presentation (G : Curve) (keys : Keyring) (credential : Credential) : Presentation where
  identity := keys.sealIdentity (.aci credential.aci)
  profileKey := keys.sealProfileKey credential.profileKey credential.aci
  expiration := credential.expiration
  proof := Schnorr.sign G keys.signingKey (credential.transcript G keys)

/-- Only a credential that the server signed is presented. -/
theorem present_eq_ok_iff {serverKey : Schnorr.VerifyingKey} {keys : Keyring}
    {credential : Credential} {shown : Presentation} :
    credential.present G serverKey keys = .ok shown ↔
      credential.verify G serverKey = .ok () ∧ credential.presentation G keys = shown := by
  rw [present, bind_eq_ok_iff]
  constructor
  · rintro ⟨⟨⟩, signed, made⟩
    exact ⟨signed, Except.ok.inj made⟩
  · rintro ⟨signed, rfl⟩
    exact ⟨(), signed, rfl⟩

theorem verify_issue (lawful : G.Lawful IsLog) (server : Server) (aci : Uuid)
    (profileKey : ProfileKey) (expiration : UInt64) :
    (server.issue G aci profileKey expiration).verify G (server.publicKey G) = .ok () :=
  verifySignature_sign lawful server.signingKey (credentialMessage aci profileKey expiration)

theorem verify_presentation (lawful : G.Lawful IsLog) (keys : Keyring) (credential : Credential) :
    (credential.presentation G keys).verify G (keys.publicParams G) = .ok () :=
  verifySignature_sign lawful keys.signingKey _

/-- Whatever the server's key and the keys of the group are, a credential that the server issued can
be presented to the group. The presentation verifies and survives encoding, and the group reads from
it what was issued. -/
theorem present_issue (lawful : G.Lawful IsLog) (server : Server) (keys : Keyring) (aci : Uuid)
    (profileKey : ProfileKey) (expiration : UInt64) :
    ∃ shown, (server.issue G aci profileKey expiration).present G (server.publicKey G) keys =
        .ok shown
      ∧ shown.verify G (keys.publicParams G) = .ok ()
      ∧ Presentation.ofBytes shown.toBytes = .ok shown
      ∧ keys.openIdentity shown.identity = .ok (.aci aci)
      ∧ keys.openProfileKey shown.profileKey aci = .ok profileKey
      ∧ shown.expiration = expiration := by
  have signed := verify_issue lawful server aci profileKey expiration
  refine ⟨_, present_eq_ok_iff.2 ⟨signed, rfl⟩, ?_, ?_, ?_, ?_, ?_⟩
  · exact verify_presentation lawful keys _
  · exact Presentation.ofBytes_toBytes _
  · exact keys.openIdentity_sealIdentity (.aci aci)
  · exact keys.openProfileKey_sealProfileKey profileKey aci
  · rfl

end Credential

/-! ### A presentation on a curve that looks like Ristretto -/

/-- Curves that encode the verifying key and the nonce alike make the same signature. -/
theorem Schnorr.signWith_congr {H : Curve} {key : SigningKey} {message entropy : Bytes}
    (same_key : G.encodedMultiple key = H.encodedMultiple key)
    (same_nonce : G.encodedMultiple (.ofWide (sha512 (nonceInput key message entropy))) =
      H.encodedMultiple (.ofWide (sha512 (nonceInput key message entropy)))) :
    signWith G key message entropy = signWith H key message entropy := by
  simp only [signWith, verifyingKey, same_key, same_nonce]

theorem Schnorr.sign_congr {H : Curve} {key : SigningKey} {message : Bytes}
    (same_key : G.encodedMultiple key = H.encodedMultiple key)
    (same_nonce : G.encodedMultiple (.ofWide (sha512 (nonceInput key message []))) =
      H.encodedMultiple (.ofWide (sha512 (nonceInput key message [])))) :
    sign G key message = sign H key message :=
  signWith_congr same_key same_nonce

/-- What is hashed into the nonce of a presentation's proof. -/
def Credential.nonceInput (G : Curve) (keys : Keyring) (credential : Credential) : Bytes :=
  Schnorr.nonceInput keys.signingKey (credential.transcript G keys) []

theorem Credential.presentation_congr {H : Curve} {keys : Keyring} {credential : Credential}
    (same_key : G.encodedMultiple keys.signingKey = H.encodedMultiple keys.signingKey)
    (same_nonce : G.encodedMultiple (.ofWide (sha512 (credential.nonceInput H keys))) =
      H.encodedMultiple (.ofWide (sha512 (credential.nonceInput H keys)))) :
    credential.presentation G keys = credential.presentation H keys := by
  -- the curve enters by the two points that are encoded, the public key and the nonce
  have params : keys.publicParams G = keys.publicParams H :=
    congrArg (PublicParams.mk keys.identifier) same_key
  have shown : credential.transcript G keys = credential.transcript H keys := by
    rw [transcript, params, transcript]
  rw [presentation, shown, Schnorr.sign_congr same_key same_nonce, presentation]

namespace Sample

def issuer : Server where
  signingKey := .ofNat 3

/-- The credential that the server issues on Ristretto. -/
def credential : Credential :=
  issuer.issue Ristretto.curve (uuid 1) (profileKey 1) expiration

def credentialNonce : Scalar :=
  .ofNat 6211098906048004546192055192147059959208476584312126939605900388253065815435

def presentationNonce : Scalar :=
  .ofNat 3589029202746770131141384971851890172371734866769215600504479426128968854617

theorem credentialNonce_eq :
    Scalar.ofWide (sha512 (Schnorr.nonceInput issuer.signingKey
      (credentialMessage (uuid 1) (profileKey 1) expiration) [])) = credentialNonce := by
  unfold credentialMessage ProfileKey.commitment
  rw [sha256_eq, sha512_eq]
  decide +kernel

theorem presentationNonce_eq :
    Scalar.ofWide (sha512 (Schnorr.nonceInput groupKeys.signingKey
      (credential.transcript Ristretto.curve groupKeys) [])) = presentationNonce := by
  have params : groupKeys.publicParams Ristretto.curve =
      ⟨groupKeys.identifier, Ristretto.compress (Ristretto.mul 7 Ristretto.base)⟩ := rfl
  -- what is hashed is written out before the hash runs, which reads it again and again
  rw [Credential.transcript, params]
  unfold Ristretto.compress Ristretto.invSqrt Keyring.sealIdentity Keyring.identityNonce
    Keyring.sealProfileKey Keyring.profileKeyNonce Keyring.syntheticNonce
  rw [Ristretto.mul_eq, Ristretto.fpow_eq, sha256_eq, sha512_eq]
  decide +kernel

/-- The scalars whose multiples of the base point are encoded when the sample credential is issued
and presented. -/
def secrets : List Scalar :=
  [issuer.signingKey, credentialNonce, groupKeys.signingKey, presentationNonce]

theorem distinct_secrets :
    (secrets.map Scalar.toOctets ++ secrets.map Ristretto.curve.encodedMultiple).Nodup := by
  rw [Ristretto.encodedMultiple_curve]
  unfold Ristretto.compress Ristretto.invSqrt
  rw [Ristretto.mul_eq, Ristretto.fpow_eq]
  decide +kernel

/-- A lawful curve that encodes them as Ristretto does. -/
def lookalike : Curve := .lookalike secrets

theorem lawful_lookalike :
    lookalike.Lawful fun (a : Scalar) e => (a.value : ZMod Scalar.order) = e :=
  Curve.lawful_lookalike _

theorem encodedMultiple_lookalike {a : Scalar} (secret : a ∈ secrets) :
    lookalike.encodedMultiple a = Ristretto.curve.encodedMultiple a :=
  Curve.encodedMultiple_lookalike distinct_secrets secret

theorem publicKey_issuer : issuer.publicKey lookalike = issuer.publicKey Ristretto.curve :=
  encodedMultiple_lookalike (List.mem_cons_self ..)

theorem publicParams_groupKeys :
    groupKeys.publicParams lookalike = groupKeys.publicParams Ristretto.curve :=
  congrArg (PublicParams.mk groupKeys.identifier) (encodedMultiple_lookalike (by simp [secrets]))

/-- A curve that encodes the server's key and its nonce as Ristretto does gives the same credential.
-/
theorem issue_of_lookalike {known : List Scalar}
    (distinct : (known.map Scalar.toOctets ++ known.map Ristretto.curve.encodedMultiple).Nodup)
    (key : issuer.signingKey ∈ known) (nonce : credentialNonce ∈ known) :
    issuer.issue (.lookalike known) (uuid 1) (profileKey 1) expiration = credential := by
  rw [credential, Server.issue, Server.issue, Schnorr.sign_congr]
  · exact Curve.encodedMultiple_lookalike distinct key
  · rw [credentialNonce_eq]
    exact Curve.encodedMultiple_lookalike distinct nonce

theorem issue_credential :
    issuer.issue lookalike (uuid 1) (profileKey 1) expiration = credential :=
  issue_of_lookalike distinct_secrets (by simp [secrets]) (by simp [secrets])

theorem presentation_credential :
    credential.presentation lookalike groupKeys =
      credential.presentation Ristretto.curve groupKeys := by
  apply Credential.presentation_congr
  · exact encodedMultiple_lookalike (by simp [secrets])
  · rw [Credential.nonceInput, presentationNonce_eq]
    exact encodedMultiple_lookalike (by simp [secrets])

/-- A curve that has Ristretto's encodings gives the presentation that Ristretto gives, and the
group reads it. -/
theorem present_issue_sample :
    let shown := credential.presentation Ristretto.curve groupKeys
    credential.present lookalike (issuer.publicKey Ristretto.curve) groupKeys = .ok shown
      ∧ shown.verify lookalike (groupKeys.publicParams Ristretto.curve) = .ok ()
      ∧ Presentation.ofBytes shown.toBytes = .ok shown
      ∧ groupKeys.openIdentity shown.identity = .ok (.aci (uuid 1))
      ∧ groupKeys.openProfileKey shown.profileKey (uuid 1) = .ok (profileKey 1) := by
  intro shown
  obtain ⟨found, presented, verified, parsed, identity, key, -⟩ := Credential.present_issue
    lawful_lookalike issuer groupKeys (uuid 1) (profileKey 1) expiration
  -- the lookalike curve stands for Ristretto on these keys, whose points are known
  rw [issue_credential, publicKey_issuer] at presented
  rw [publicParams_groupKeys] at verified
  have same : shown = found :=
    presentation_credential.symm.trans (Credential.present_eq_ok_iff.1 presented).2
  rw [same]
  exact ⟨presented, verified, parsed, identity, key⟩

end Sample

end SealedGroups
