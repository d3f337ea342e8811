import SealedGroups.Proofs.Answers
import SealedGroups.Proofs.Notary

/-!
# What is signed cannot be confused

The server signs credentials and the bytes of actions with one key, and members sign presentations.
Credentials and presentations are signed behind a label each and have fields of fixed widths, so
what is signed tells what was meant. Actions are signed as they are. But no record begins like the
labels do: in their first letter, the bits of a key that say the form of a payload name a form that
does not exist. So a client refuses a credential or a presentation in place of actions, and with it
the one message that a credential's signature is good for (`signed_messages_apart`).
-/

namespace SealedGroups

open Wire (Record)

/-! ### No record begins with an undefined form -/

namespace Wire

theorem Varint.read_cons_of_lt {b : UInt8} (last : b.toNat < 128) (rest : Bytes) :
    read (b :: rest) = some (b.toNat, rest) := by
  rw [read, readPlaces, if_pos last, if_neg (by omega)]

theorem readField_of_undefined {b : UInt8} (last : b.toNat < 128) (undefined : 5 < b.toNat % 8)
    (budget : Nat) (rest : Bytes) : readField budget (b :: rest) = none := by
  have none : readPayload (b.toNat % 8) rest = none := by
    -- of the wire types that three bits can spell two are undefined
    obtain six | seven : b.toNat % 8 = 6 ∨ b.toNat % 8 = 7 := by omega
    · rw [six]
      rfl
    · rw [seven]
      rfl
  rw [readField, readKey, Varint.read_cons_of_lt last]
  dsimp only
  split
  · rfl
  · simp only [bind, Option.bind_some, if_neg (show ¬ b.toNat % 8 = 3 by omega), none,
      Option.bind_none]

theorem Record.read?_of_undefined {R : Type} [Record R] {b : UInt8} (last : b.toNat < 128)
    (undefined : 5 < b.toNat % 8) (rest : Bytes) : read? (R := R) (b :: rest) = none := by
  have none : readFields nesting (b :: rest) = none := by
    rw [readFields, if_neg (List.cons_ne_nil b rest)]
    split
    · rfl
    · rename_i found
      rw [readField_of_undefined last undefined] at found
      cases found
  rw [read?, mergeBytes, Layout.mergeBytes, none]
  rfl

end Wire

/-! ### Labels and fields -/

/-- What is signed behind a label: a credential or a presentation. -/
inductive Labelled : Bytes → Prop where
  | credential (aci : Uuid) (profileKey : ProfileKey) (expiration : UInt64) :
      Labelled (credentialMessage aci profileKey expiration)
  | presentation (params : PublicParams) (identity : IdentityCiphertext)
      (profileKey : ProfileKeyCiphertext) (expiration : UInt64) :
      Labelled (presentationTranscript params identity profileKey expiration)

/-- Both labels begin with the letter of the number 103. -/
theorem Labelled.exists_eq_cons {message : Bytes} (labelled : Labelled message) :
    ∃ rest, message = 103 :: rest := by
  cases labelled with
  | credential aci profileKey expiration =>
    -- the label begins with a g, whose key has an undefined wire type
    have label : credentialLabel = 103 :: credentialLabel.tail := by decide
    rw [credentialMessage, label]
    exact ⟨_, rfl⟩
  | presentation params identity profileKey expiration =>
    have label : presentationLabel = 103 :: presentationLabel.tail := by decide
    rw [presentationTranscript, label]
    exact ⟨_, rfl⟩

theorem Labelled.read?_eq_none {R : Type} [Record R] {message : Bytes}
    (labelled : Labelled message) : Record.read? (R := R) message = none := by
  obtain ⟨rest, rfl⟩ := labelled.exists_eq_cons
  exact Record.read?_of_undefined (by decide) (by decide) rest

theorem Octets.append_toList_inj {n : Nat} {front other : Bytes} {a b : Octets n}
    (same : front ++ a.toList = other ++ b.toList) : front = other ∧ a = b := by
  obtain ⟨fronts, lists⟩ := List.append_inj' same (by simp)
  exact ⟨fronts, ext_toList lists⟩

theorem append_expiration_inj {front other : Bytes} {a b : UInt64}
    (same : front ++ bytesBE 8 a.toNat = other ++ bytesBE 8 b.toNat) : front = other ∧ a = b := by
  have small : ∀ x : UInt64, x.toNat < capacity 8 := fun x => x.toNat_lt
  obtain ⟨fronts, lists⟩ := List.append_inj' same (by simp)
  exact ⟨fronts, UInt64.toNat_inj.1 (bytesBE_inj (small a) (small b) lists)⟩

/-- A credential can be read back from what is signed, up to the profile key behind the commitment.
-/
theorem credentialMessage_inj {aci aci' : Uuid} {profileKey profileKey' : ProfileKey}
    {expiration expiration' : UInt64} :
    credentialMessage aci profileKey expiration = credentialMessage aci' profileKey' expiration' ↔
      aci = aci' ∧ profileKey.commitment = profileKey'.commitment ∧ expiration = expiration' := by
  constructor
  · intro same
    -- all parts have a fixed width, so they are taken off from the end
    obtain ⟨same, expirations⟩ := append_expiration_inj same
    obtain ⟨same, commitments⟩ := Octets.append_toList_inj same
    obtain ⟨-, acis⟩ := Octets.append_toList_inj same
    exact ⟨acis, commitments, expirations⟩
  · rintro ⟨rfl, commitments, rfl⟩
    rw [credentialMessage, commitments, credentialMessage]

/-- A presentation can be read back from what is signed. -/
theorem presentationTranscript_inj {params params' : PublicParams}
    {identity identity' : IdentityCiphertext} {profileKey profileKey' : ProfileKeyCiphertext}
    {expiration expiration' : UInt64} :
    presentationTranscript params identity profileKey expiration =
        presentationTranscript params' identity' profileKey' expiration' ↔
      params = params' ∧ identity = identity' ∧ profileKey = profileKey'
        ∧ expiration = expiration' := by
  constructor
  · intro same
    obtain ⟨same, expirations⟩ := append_expiration_inj same
    obtain ⟨same, profileKeys⟩ := Octets.append_toList_inj same
    obtain ⟨same, identities⟩ := Octets.append_toList_inj same
    obtain ⟨-, params⟩ := Octets.append_toList_inj same
    obtain ⟨identifiers, verifyingKeys⟩ := Octets.append_inj.1 params
    refine ⟨?_, identities, profileKeys, expirations⟩
    cases params'
    cases identifiers
    cases verifyingKeys
    rfl
  · rintro ⟨rfl, rfl, rfl, rfl⟩
    rfl

/-- A credential is shorter than a presentation. -/
theorem credentialMessage_ne_presentationTranscript (aci : Uuid) (profileKey : ProfileKey)
    (expiration : UInt64) (params : PublicParams) (identity : IdentityCiphertext)
    (sealedKey : ProfileKeyCiphertext) (expiration' : UInt64) :
    credentialMessage aci profileKey expiration ≠
      presentationTranscript params identity sealedKey expiration' := by
  intro same
  -- the two kinds of messages never have the same length
  have lengths := congrArg List.length same
  have label : credentialLabel.length = 41 := by decide
  have label' : presentationLabel.length = 45 := by decide
  simp only [credentialMessage, presentationTranscript, List.length_append, Octets.length_toList,
    length_bytesBE, label, label'] at lengths
  omega

/-! ### Changes that are opened -/

/-- Two messages do not get one challenge from the point of a signature. -/
def Schnorr.TellsApart (verifyingKey : VerifyingKey) (signature : Signature)
    (first second : Bytes) : Prop :=
  let point := Octets.left (n := 32) 32 signature
  challenge point verifyingKey first = challenge point verifyingKey second → first = second

namespace GroupClient

variable {client : GroupClient} {change : Sealed.SignedChange} {opened : Change}

/-- A change that is opened was decoded, and passed the check if there was one. -/
theorem of_openChange {verify : Bool}
    (read : (client.openChange change verify).outcome = .ok (some opened)) :
    (∃ actions : Sealed.Actions, Record.read? change.actions = some actions)
      ∧ (verify = true → client.checkNotary change = .ok ()) := by
  -- a newer epoch is passed over, so there would be no change
  have known : change.epoch ≤ client.config.highestEpoch := by
    by_contra newer
    rw [(openChange_of_newer (UInt32.not_le.1 newer) verify).1] at read
    cases read
  have decoded : (client.openBytes change.actions).outcome = .ok (some opened) →
      ∃ actions : Sealed.Actions, Record.read? change.actions = some actions := by
    intro read
    rw [openBytes] at read
    split at read
    · cases read
    · exact ⟨_, ‹_›⟩
  cases verify with
  | false =>
    rw [openChange_unchecked known] at read
    exact ⟨decoded read, fun checked => absurd checked Bool.false_ne_true⟩
  | true =>
    by_cases signed : client.checkNotary change = .ok ()
    · rw [openChange_checked known signed] at read
      exact ⟨decoded read, fun _ => signed⟩
    · rw [openChange_refused known signed] at read
      cases read

/-- Bytes that were signed behind a label are never opened as a change. -/
theorem openChange_ne_of_labelled (labelled : Labelled change.actions) (verify : Bool) :
    (client.openChange change verify).outcome ≠ .ok (some opened) := by
  intro read
  obtain ⟨⟨actions, decoded⟩, -⟩ := of_openChange read
  rw [labelled.read?_eq_none] at decoded
  cases decoded

/-- The signature of a credential opens no change, if the hash tells the bytes of the change from
the credential. -/
theorem openChange_ne_of_credential {IsLog : client.curve.Point → ZMod Scalar.order → Prop}
    {server : Server} (lawful : client.curve.Lawful IsLog)
    (trusted : client.serverKey = server.publicKey client.curve)
    (nonzero : server.signingKey.value ≠ 0) {credential : Credential}
    (issued : credential.verify client.curve client.serverKey = .ok ())
    (apart : Schnorr.TellsApart client.serverKey credential.signature change.actions
      (credentialMessage credential.aci credential.profileKey credential.expiration))
    (borrowed : change.signature = credential.signature.toList) :
    (client.openChange change true).outcome ≠ .ok (some opened) := by
  intro read
  obtain ⟨signature, carried, accepted⟩ := checkNotary_eq_ok_iff.1 ((of_openChange read).2 rfl)
  obtain rfl : signature = credential.signature := Octets.ext_toList (carried.trans borrowed)
  have accepted' := verifySignature_eq_ok_iff.1 issued
  rw [trusted] at accepted accepted' apart
  -- one first half under two messages and one key: the challenges are the same
  have challenges :=
    (Schnorr.challenge_eq_of_verify lawful accepted accepted').resolve_left nonzero
  have labelled : Labelled change.actions := apart challenges ▸ .credential ..
  exact openChange_ne_of_labelled labelled true read

end GroupClient

/-- What is signed behind a label says whether it is a credential or a presentation, and which. None
of it is read as actions or opened as a change, and the signature of a credential does not open
other bytes either, unless the key is zero or the hash gives both messages one challenge. -/
theorem signed_messages_apart :
    (∀ (aci aci' : Uuid) (profileKey profileKey' : ProfileKey) (expiration expiration' : UInt64),
      credentialMessage aci profileKey expiration =
          credentialMessage aci' profileKey' expiration' ↔
        aci = aci' ∧ profileKey.commitment = profileKey'.commitment ∧ expiration = expiration')
      ∧ (∀ (params params' : PublicParams) (identity identity' : IdentityCiphertext)
        (profileKey profileKey' : ProfileKeyCiphertext) (expiration expiration' : UInt64),
        presentationTranscript params identity profileKey expiration =
            presentationTranscript params' identity' profileKey' expiration' ↔
          params = params' ∧ identity = identity' ∧ profileKey = profileKey'
            ∧ expiration = expiration')
      ∧ (∀ (aci : Uuid) (profileKey : ProfileKey) (expiration : UInt64) (params : PublicParams)
        (identity : IdentityCiphertext) (sealedKey : ProfileKeyCiphertext) (expiration' : UInt64),
        credentialMessage aci profileKey expiration ≠
          presentationTranscript params identity sealedKey expiration')
      ∧ (∀ bytes, Labelled bytes → Record.read? (R := Sealed.Actions) bytes = none)
      ∧ ∀ (client : GroupClient) (change : Sealed.SignedChange) (opened : Change),
        (Labelled change.actions →
            ∀ verify, (client.openChange change verify).outcome ≠ .ok (some opened))
          ∧ ∀ (server : Server) (IsLog : client.curve.Point → ZMod Scalar.order → Prop)
            (credential : Credential), client.curve.Lawful IsLog →
            client.serverKey = server.publicKey client.curve → server.signingKey.value ≠ 0 →
            credential.verify client.curve client.serverKey = .ok () →
            Schnorr.TellsApart client.serverKey credential.signature change.actions
              (credentialMessage credential.aci credential.profileKey credential.expiration) →
            change.signature = credential.signature.toList →
            (client.openChange change true).outcome ≠ .ok (some opened) := by
  refine ⟨?_, ?_, ?_, ?_, ?_⟩
  · intros
    exact credentialMessage_inj
  · intros
    exact presentationTranscript_inj
  · exact credentialMessage_ne_presentationTranscript
  · exact fun bytes labelled => labelled.read?_eq_none
  · intro client change opened
    refine ⟨GroupClient.openChange_ne_of_labelled, ?_⟩
    intro server IsLog credential lawful trusted nonzero issued apart borrowed
    exact GroupClient.openChange_ne_of_credential lawful trusted nonzero issued apart borrowed

namespace Sample

/-- A client of the issuer, on the curve on which the sample credential was issued. -/
def credentialHolder : GroupClient where
  curve := lookalike
  serverKey := issuer.publicKey Ristretto.curve
  keys := groupKeys

/-- Actions with the signature of the sample credential. -/
def borrowedChange : Sealed.SignedChange where
  actions := Record.write pictureActions
  signature := credential.signature.toList
  epoch := 5

theorem left_credential :
    Octets.left (n := 32) 32 credential.signature =
      Ristretto.curve.encodedMultiple credentialNonce := by
  rw [← credentialNonce_eq]
  exact Octets.left_append ..

theorem tellsApart_borrowedChange :
    Schnorr.TellsApart credentialHolder.serverKey credential.signature borrowedChange.actions
      (credentialMessage (uuid 1) (profileKey 1) expiration) := by
  have key : credentialHolder.serverKey = Ristretto.curve.encodedMultiple issuer.signingKey := rfl
  have apart : Schnorr.challenge (Ristretto.curve.encodedMultiple credentialNonce)
        (Ristretto.curve.encodedMultiple issuer.signingKey) borrowedChange.actions ≠
      Schnorr.challenge (Ristretto.curve.encodedMultiple credentialNonce)
        (Ristretto.curve.encodedMultiple issuer.signingKey)
        (credentialMessage (uuid 1) (profileKey 1) expiration) := by
    rw [Ristretto.encodedMultiple_curve, borrowedChange, write_pictureActions]
    unfold pictureActions Keyring.sealIdentity Keyring.identityNonce Keyring.syntheticNonce
      credentialMessage ProfileKey.commitment Schnorr.challenge Ristretto.compress
      Ristretto.invSqrt
    rw [Ristretto.mul_eq, Ristretto.fpow_eq, sha256_eq, sha512_eq]
    decide +kernel
  rw [Schnorr.TellsApart, left_credential, key]
  exact fun same => absurd same apart

/-- The sample credential is not read as actions, and its signature does not open others. -/
theorem signed_messages_apart_credential :
    Record.read? (R := Sealed.Actions) (credentialMessage (uuid 1) (profileKey 1) expiration) =
        none
      ∧ ∀ opened, (credentialHolder.openChange borrowedChange true).outcome ≠ .ok (some opened)
        ∧ ∀ verify, (credentialHolder.openChange { borrowedChange with
            actions := credentialMessage (uuid 1) (profileKey 1) expiration } verify).outcome ≠
          .ok (some opened) := by
  obtain ⟨-, -, -, unread, unopened⟩ := signed_messages_apart
  have issued : credential.verify lookalike credentialHolder.serverKey = .ok () := by
    have verified :=
      Credential.verify_issue lawful_lookalike issuer (uuid 1) (profileKey 1) expiration
    rw [issue_credential, publicKey_issuer] at verified
    exact verified
  refine ⟨unread _ (.credential ..), fun opened => ⟨?_, ?_⟩⟩
  · exact (unopened credentialHolder borrowedChange opened).2 issuer _ credential lawful_lookalike
      publicKey_issuer.symm (by decide) issued tellsApart_borrowedChange rfl
  · exact (unopened credentialHolder _ opened).1 (.credential ..)

end Sample

end SealedGroups
