import SealedGroups.Client.Create
import SealedGroups.Proofs.Attributes
import SealedGroups.Proofs.Digests
import SealedGroups.Proofs.Intents

/-!
# A new group is what its creator meant

The first state of a group is put together from ciphertexts, presentations and blobs, all under keys
that were just made. Whoever has the keys reads from it what the group was created with: the creator
as administrator, everyone else with a credential after them in the order given, and the rest
invited by the creator (`openGroup_of_createGroup`). Only a title that is too long for the cipher
stands in the way.
-/

namespace SealedGroups

namespace GroupClient

/-- A group that was just created, with members who showed a credential and others who were invited.
-/
def newGroup (client : GroupClient) (title timer : Bytes) (avatar : Option String)
    (creator : ServiceId) (credential : Credential) (role : Role) (credentials : List Credential)
    (ids : List ServiceId) : Sealed.Group where
  publicKey := client.publicParams.toOctets.toList
  title
  avatar := avatar.getD ""
  timer
  access := some .ofNewGroup
  members := client.sealedMember .administrator credential
    :: credentials.map (client.sealedMember role)
  invites := ids.map fun id => client.inviteOf id role creator

section

variable {client : GroupClient} {IsLog : client.curve.Point → ZMod Scalar.order → Prop}

theorem firstState_of_present {credential : Credential} {others : List Candidate}
    (presents : client.present credential = .ok (credential.presentation client.curve client.keys))
    (present_others : ∀ candidate ∈ others, ∀ credential ∈ candidate.credential,
      client.present credential = .ok (credential.presentation client.curve client.keys))
    (title timer : Bytes) (avatar : Option String) (creator : ServiceId) (role : Role) :
    client.firstState title timer avatar creator credential others role =
      .ok (client.newGroup title timer avatar creator credential role (joining others)
        (invited others)) := by
  rw [firstState, memberOf_of_present .administrator presents]
  -- the creator is in the first state, and the others are enrolled one by one
  apply foldlM_candidates (client.newGroup title timer avatar creator credential role)
  · intro candidate mem credential has credentials ids
    rw [enrol, has]
    simp only [memberOf_of_present role (present_others candidate mem credential has), newGroup,
      List.map_append]
    rfl
  · intro candidate mem has credentials ids
    rw [enrol, has]
    simp only [newGroup, List.map_append]
    rfl

/-- A new group is read as it was meant, if its title and timer are those that were encrypted. -/
theorem openGroup_newGroup (lawful : client.curve.Lawful IsLog) {title : String}
    {duration : UInt32} {titleBlob timerBlob : Bytes} {role : Role}
    (given : role = .normal ∨ role = .administrator)
    (titled : (client.keys.openTitle titleBlob : Noted ClientError _) = pure title)
    (timed : (client.keys.openTimer timerBlob : Noted ClientError _) = pure duration)
    (avatar : Option String) (creator : ServiceId) (credential : Credential)
    (credentials : List Credential) (ids : List ServiceId) :
    (client.openGroup (client.newGroup titleBlob timerBlob avatar creator credential role
      credentials
      ids)).outcome = .ok {
        title
        avatar := avatar.getD ""
        timer := some { duration }
        access := some .ofNewGroup
        members := credential.member .administrator :: credentials.map (·.member role)
        invites := ids.map (client.keys.invite role creator)
        announcements := .disabled } := by
  apply openGroup_eq_ok_iff.2
  constructor
  case members =>
    refine mapM_cons_eq_ok_iff.2 ⟨_, _, openMember_sealedMember lawful .administrator credential,
      ?_, rfl⟩
    apply mapM_map_eq_ok
    intro other _
    exact openMember_sealedMember lawful role other
  case invites =>
    apply mapM_map_eq_ok
    intro id _
    exact client.openInvite_inviteOf creator id given
  case title =>
    rw [newGroup, titled]
    rfl
  case timer =>
    rw [newGroup, timed]
    rfl
  all_goals rfl

end

end GroupClient

namespace Client

variable {client : Client} {IsLog : client.curve.Point → ZMod Scalar.order → Prop}
  {server : Server}

section

variable {creator : Candidate} {others : List Candidate} {credential : Credential} {title : String}
  {avatar : Option String} {duration : UInt32} {role : Role} {rng : Random}

/-- Under the keys that are made, a group is created exactly if both blobs are. -/
theorem createGroup_eq_ok_iff {keys : Keyring} {titleBlob timerBlob : Except SealingError Bytes}
    {rng₁ rng₂ rng₃ : Random} (generated : Keyring.generate rng = (keys, rng₁))
    (titled : keys.sealAttribute (.title title) rng₁ = (titleBlob, rng₂))
    (timed : keys.sealAttribute (.timer duration) rng₂ = (timerBlob, rng₃))
    (allowed : client.creatorCredential creator others = .ok credential)
    (presents : ∀ candidate ∈ creator :: others, ∀ credential ∈ candidate.credential,
      (client.forGroup keys).present credential = .ok (credential.presentation client.curve keys))
    (has : creator.credential = some credential) {created : NewGroup} :
    (client.createGroup title avatar duration creator others role rng).1 = .ok created ↔
      ∃ name timer, titleBlob = .ok name ∧ timerBlob = .ok timer ∧
        NewGroup.mk keys ((client.forGroup keys).newGroup name timer avatar creator.id credential
          role (joining others) (invited others)) = created := by
  -- what the state is does not depend on how the blobs came out
  have state : ∀ name timer,
      (client.forGroup keys).firstState name timer avatar creator.id credential others role =
        .ok ((client.forGroup keys).newGroup name timer avatar creator.id credential role
          (joining others) (invited others)) :=
    fun name timer => GroupClient.firstState_of_present
      (presents creator List.mem_cons_self credential has)
      (fun candidate mem => presents candidate (List.mem_cons_of_mem _ mem)) name timer avatar
      creator.id role
  have titled : (client.forGroup keys).sealAttribute (.title title) rng₁ =
      (titleBlob.mapError .sealing, rng₂) := by
    rw [GroupClient.sealAttribute, forGroup, titled]
  have timed : (client.forGroup keys).sealAttribute (.timer duration) rng₂ =
      (timerBlob.mapError .sealing, rng₃) := by
    rw [GroupClient.sealAttribute, forGroup, timed]
  simp only [createGroup, allowed, generated, titled, timed, state, bind_eq_ok_iff,
    mapError_eq_ok_iff]
  constructor
  · rintro ⟨name, named, timer, set, _, ⟨⟩, same⟩
    exact ⟨name, timer, named, set, Except.ok.inj same⟩
  · rintro ⟨name, timer, named, set, same⟩
    exact ⟨name, named, timer, set, _, rfl, congrArg Except.ok same⟩

/-- A group has the keys that were made for it. -/
theorem keys_of_createGroup {created : NewGroup}
    (done : (client.createGroup title avatar duration creator others role rng).1 = .ok created) :
    created.keys = (Keyring.generate rng).1 := by
  simp only [createGroup] at done
  split at done
  · cases done
  · simp only [bind_eq_ok_iff] at done
    obtain ⟨_, -, _, -, _, -, same⟩ := done
    cases same
    rfl

end

/-- A group can be created exactly if the cipher can take its title. Whoever has its keys then reads
from it the title, the picture and the timer it was given, rights that let members change it but
nobody in by a link, the creator as administrator before everyone else who has a credential, and
those who have none as invited by the creator, each list in the order of the candidates. -/
theorem openGroup_of_createGroup (lawful : client.curve.Lawful IsLog)
    (trusted : client.serverKey = server.publicKey client.curve) {creator : Candidate}
    {credential : Credential} (has : creator.credential = some credential)
    {others : List Candidate} (small : others.length + 1 ≤ client.config.maxGroupSize)
    (qualified : ∀ candidate ∈ creator :: others, ∀ credential ∈ candidate.credential,
      server.Issued client.curve credential)
    {role : Role} (given : role = .normal ∨ role = .administrator) (title : String)
    (avatar : Option String) (duration : UInt32) (rng : Random) :
    ((∃ created, (client.createGroup title avatar duration creator others role rng).1 =
        .ok created) ↔ (Attribute.title title).fits = true)
      ∧ ∀ created, (client.createGroup title avatar duration creator others role rng).1 =
          .ok created →
        ((client.forGroup created.keys).openGroup created.group).outcome = .ok {
          title
          avatar := avatar.getD ""
          timer := some { duration }
          access := some { attributes := .member, members := .member, inviteLink := .unsatisfiable }
          revision := 0
          members := credential.member .administrator :: (joining others).map (·.member role)
          invites := (invited others).map (created.keys.invite role creator.id)
          requests := []
          linkPassword := []
          description := ""
          announcements := .disabled
          bans := [] } := by
  -- the randomness goes from the keys to the title and from there to the timer
  rcases generated : Keyring.generate rng with ⟨keys, rng₁⟩
  rcases titled : keys.sealAttribute (.title title) rng₁ with ⟨titleBlob, rng₂⟩
  rcases timed : keys.sealAttribute (.timer duration) rng₂ with ⟨timerBlob, rng₃⟩
  have allowed : client.creatorCredential creator others = .ok credential := by
    rw [creatorCredential]
    simp only [has, if_neg (Nat.not_lt.2 small)]
  have presents : ∀ candidate ∈ creator :: others, ∀ credential ∈ candidate.credential,
      (client.forGroup keys).present credential = .ok (credential.presentation client.curve keys) :=
    fun candidate mem shown has =>
      GroupClient.present_of_issued lawful trusted (qualified candidate mem shown has)
  have made : ∀ created,
      (client.createGroup title avatar duration creator others role rng).1 = .ok created ↔ _ :=
    fun _ => createGroup_eq_ok_iff generated titled timed allowed presents has
  have named : ∀ {name}, titleBlob = .ok name ↔
      (keys.sealAttribute (.title title) rng₁).1 = .ok name := by simp [titled]
  have set : ∀ {timer}, timerBlob = .ok timer ↔
      (keys.sealAttribute (.timer duration) rng₂).1 = .ok timer := by simp [timed]
  refine ⟨⟨?_, ?_⟩, ?_⟩
  · rintro ⟨created, done⟩
    obtain ⟨name, -, sealed, -⟩ := (made created).1 done
    exact (keys.exists_sealAttribute_iff (.title title) rng₁).1 ⟨name, named.1 sealed⟩
  · intro fits
    -- a timer always fits, so the title alone decides
    obtain ⟨name, sealed⟩ := (keys.exists_sealAttribute_iff (.title title) rng₁).2 fits
    obtain ⟨timer, short⟩ := (keys.exists_sealAttribute_iff (.timer duration) rng₂).2
      (Attribute.fits_timer duration)
    exact ⟨_, (made _).2 ⟨name, timer, named.2 sealed, set.2 short, rfl⟩⟩
  · intro created done
    -- whatever was made was made of these two blobs, and they open to what was sealed
    obtain ⟨name, timer, sealed, short, rfl⟩ := (made created).1 done
    have lawful : (client.forGroup keys).curve.Lawful IsLog := lawful
    have titled : ((client.forGroup keys).keys.openTitle name : Noted ClientError _) = pure title :=
      Keyring.openTitle_of_sealAttribute (named.1 sealed)
    have timed : ((client.forGroup keys).keys.openTimer timer : Noted ClientError _) =
        pure duration := Keyring.openTimer_of_sealAttribute (set.1 short)
    exact GroupClient.openGroup_newGroup lawful given titled timed avatar creator.id credential
      (joining others) (invited others)

end Client

/-! ### A group created on a curve that looks like Ristretto -/

namespace Sample

/-- The 32 bytes that a number spells. -/
def octets (n : Nat) : Octets 32 :=
  ⟨bytesBE 32 n, length_bytesBE 32 n⟩

def entropy : Random where
  seed := .replicate 32 3

/-- The keys that are made from this randomness. -/
def freshKeys : Keyring where
  masterKey := octets 0x385553aa23a24b14d8bbc2dff606277f444e049797ae7e0404e3a9ba0ecef2fb
  identifier := octets 0x8803180116fc9fd9f758a54ffc4931c7ae35246489b9b5ed9cd7f44d9b088b80
  identityKey := octets 0xb20fc29b2ae5177e732d022264e9a42892bf639f1c11fffab99866f54324af94
  identityNonceKey := octets 0x9d5524843ad4132fdca102532a14e7cfc8d0e7e3b3059adaee485a247172dcab
  profileKeyKey := octets 0xefd448a92d4099dc78b415bfcc6e4ff48f2fea9ca912e9e6a4aed54b4d1f7d54
  profileKeyNonceKey := octets 0xfded6f0fe62cfe8175e81295b5067333ff7e2d8999c929e2699553095a2daf04
  blobKey := octets 0x3b006872a26dc3b09704ac4d9a5797d68ce99396b6d6fe90fe6a489edf4af3d9
  signingKey :=
    .ofNat 6487719629654565900561155798789110194481402725129941594138711275523586787020

theorem generate_entropy : (Keyring.generate entropy).1 = freshKeys := by
  -- the draw and the extraction are computed first, or else each key would repeat them
  have drawn : (entropy.draw 32).1 = freshKeys.masterKey := by decide +kernel
  have extracted : Hkdf.extract Keyring.salt freshKeys.masterKey.toList =
      octets 0x371238145c94704a44df50666dfae08920847d93d4f02961eae51c9e098eceb2 := by
    unfold Hkdf.extract Hkdf.hmac
    rw [sha256_eq]
    decide +kernel
  have derived : (Keyring.generate entropy).1 = .derive (entropy.draw 32).1 := rfl
  rw [derived, drawn]
  simp only [Keyring.derive, Keyring.part, Hkdf.derive_32, Hkdf.derive_64, extracted, Hkdf.hmac,
    sha256_eq]
  decide +kernel

def freshNonce : Scalar :=
  .ofNat 3338494131329361248807990397983569125906756210374162254985211101470848732848

theorem freshNonce_eq :
    Scalar.ofWide (sha512 (credential.nonceInput Ristretto.curve freshKeys)) = freshNonce := by
  have params : freshKeys.publicParams Ristretto.curve = ⟨freshKeys.identifier,
      Ristretto.compress (Ristretto.mul freshKeys.signingKey.value Ristretto.base)⟩ := rfl
  rw [Credential.nonceInput, Credential.transcript, params]
  unfold Ristretto.compress Ristretto.invSqrt Keyring.sealIdentity Keyring.identityNonce
    Keyring.sealProfileKey Keyring.profileKeyNonce Keyring.syntheticNonce
  rw [Ristretto.mul_eq, Ristretto.fpow_eq, sha256_eq, sha512_eq]
  decide +kernel

/-- The scalars whose multiples of the base point are encoded when the sample credential is issued
and shown in the new group. -/
def freshSecrets : List Scalar :=
  [issuer.signingKey, credentialNonce, freshKeys.signingKey, freshNonce]

theorem distinct_freshSecrets :
    (freshSecrets.map Scalar.toOctets
      ++ freshSecrets.map Ristretto.curve.encodedMultiple).Nodup := by
  rw [Ristretto.encodedMultiple_curve]
  unfold Ristretto.compress Ristretto.invSqrt
  rw [Ristretto.mul_eq, Ristretto.fpow_eq]
  decide +kernel

/-- A client of the issuer, on a lawful curve that encodes them as Ristretto does. -/
def founder : Client where
  curve := .lookalike freshSecrets
  serverKey := issuer.publicKey Ristretto.curve

def companions : List Candidate :=
  [credential.candidate, { id := .pni (uuid 3) }]

/-- A group with a member and an invite beside its creator. What its members show is what they would
show on Ristretto. -/
theorem openGroup_of_createGroup_sample :
    ∃ created, (founder.createGroup "Trip" none 3600 credential.candidate companions .normal
        entropy).1 = .ok created
      ∧ ((founder.forGroup created.keys).openGroup created.group).outcome = .ok {
          title := "Trip"
          timer := some { duration := 3600 }
          access := some { attributes := .member, members := .member, inviteLink := .unsatisfiable }
          members := [administrator 1, member 1]
          invites := [created.keys.invite .normal (.aci (uuid 1)) (.pni (uuid 3))]
          announcements := .disabled }
      ∧ credential.presentation founder.curve created.keys =
        credential.presentation Ristretto.curve created.keys := by
  have lawful := Curve.lawful_lookalike freshSecrets
  have encoded : ∀ a ∈ freshSecrets, founder.curve.encodedMultiple a =
      Ristretto.curve.encodedMultiple a :=
    fun _ secret => Curve.encodedMultiple_lookalike distinct_freshSecrets secret
  have trusted : founder.serverKey = issuer.publicKey founder.curve :=
    (encoded _ (by simp [freshSecrets])).symm
  have issued : issuer.Issued founder.curve credential :=
    issue_of_lookalike distinct_freshSecrets (by simp [freshSecrets]) (by simp [freshSecrets])
  have qualified : ∀ candidate ∈ credential.candidate :: companions,
      ∀ credential ∈ candidate.credential, issuer.Issued founder.curve credential := by
    intro candidate mem shown has
    simp only [companions, List.mem_cons, List.not_mem_nil, or_false] at mem
    -- two of the three have a credential, and it is the same one
    rcases mem with rfl | rfl | rfl
    · rw [← Option.some.inj has]
      exact issued
    · rw [← Option.some.inj has]
      exact issued
    · cases has
  obtain ⟨possible, opens⟩ := Client.openGroup_of_createGroup lawful trusted
    (rfl : credential.candidate.credential = some credential) (by decide) qualified (.inl rfl)
    "Trip"
    none 3600 entropy
  obtain ⟨created, done⟩ := possible.2 (by decide +kernel)
  refine ⟨created, done, opens created done, ?_⟩
  rw [Client.keys_of_createGroup done, generate_entropy]
  apply Credential.presentation_congr
  · exact encoded _ (by simp [freshSecrets])
  · rw [freshNonce_eq]
    exact encoded _ (by simp [freshSecrets])

end Sample

end SealedGroups
