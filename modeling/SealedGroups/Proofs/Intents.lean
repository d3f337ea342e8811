import SealedGroups.Client.Membership
import SealedGroups.Proofs.Extraction
import SealedGroups.Proofs.OpenedGroup
import SealedGroups.Proofs.Presentations

/-!
# Actions say what they were built for

Whoever holds a credential that the server issued can build every action that takes one, and what
the members of the group read is who it is, with which profile key, and what they did: candidates
with a credential are added, the others invited, in the order they were given (`conveys_of_issued`).
It does not matter whether a presentation is read or the ciphertexts that the server took out of it.
-/

namespace SealedGroups

/-- A credential has the signature that the server makes for what it says. -/
def Server.Issued (server : Server) (G : Curve) (credential : Credential) : Prop :=
  server.issue G credential.aci credential.profileKey credential.expiration = credential

/-! ### What the group is to know -/

/-- The member whom a credential brings in. -/
def Credential.member (credential : Credential) (role : Role) : Member where
  aci := credential.aci.toList
  role
  profileKey := credential.profileKey.toList

def Credential.joinRequest (credential : Credential) : JoinRequest where
  aci := credential.aci.toList
  profileKey := credential.profileKey.toList

/-- An invite as those who hold the keys of the group read it. -/
def Keyring.invite (keys : Keyring) (role : Role) (inviter id : ServiceId) : Invite where
  invitee := id.toBinary
  role
  inviter := inviter.toBinary
  ciphertext := (keys.sealIdentity id).toList

/-- The credentials of the candidates who have one. -/
def joining (candidates : List Candidate) : List Credential :=
  candidates.filterMap (·.credential)

/-- The candidates who have none. -/
def invited (candidates : List Candidate) : List ServiceId :=
  (candidates.filter (·.credential.isNone)).map (·.id)

/-- Candidates are taken one by one, so whatever is put together from those taken so far is put
together from all of them in the end. -/
theorem foldlM_candidates {ε σ : Type} {step : σ → Candidate → Except ε σ}
    (state : List Credential → List ServiceId → σ) {candidates : List Candidate}
    (joins : ∀ candidate ∈ candidates, ∀ credential ∈ candidate.credential, ∀ credentials ids,
      step (state credentials ids) candidate = .ok (state (credentials ++ [credential]) ids))
    (invites : ∀ candidate ∈ candidates, candidate.credential = none → ∀ credentials ids,
      step (state credentials ids) candidate = .ok (state credentials (ids ++ [candidate.id]))) :
    candidates.foldlM step (state [] []) =
      .ok (state (joining candidates) (invited candidates)) := by
  -- the lists that were taken before the first candidate are arbitrary, for the induction
  suffices taken : ∀ credentials ids, candidates.foldlM step (state credentials ids) =
      .ok (state (credentials ++ joining candidates) (ids ++ invited candidates)) from taken [] []
  induction candidates with
  | nil =>
    intro credentials ids
    rw [joining, invited, List.filterMap_nil, List.filter_nil, List.map_nil, List.append_nil,
      List.append_nil]
    rfl
  | cons candidate rest ih =>
    intro credentials ids
    have later := ih (fun other mem => joins other (List.mem_cons_of_mem _ mem))
      (fun other mem => invites other (List.mem_cons_of_mem _ mem))
    rw [List.foldlM_cons]
    cases has : candidate.credential with
    | some credential =>
      -- a credential goes behind those taken before it
      rw [joins candidate List.mem_cons_self credential has]
      have kept : invited (candidate :: rest) = invited rest := by simp [invited, has]
      have joined : joining (candidate :: rest) = credential :: joining rest := by
        simp [joining, has]
      have taken := later (credentials ++ [credential]) ids
      rw [← List.append_cons] at taken
      rw [kept, joined]
      exact taken
    | none =>
      -- an identity without one goes behind those invited before it
      rw [invites candidate List.mem_cons_self has]
      have kept : joining (candidate :: rest) = joining rest := by simp [joining, has]
      have added : invited (candidate :: rest) = candidate.id :: invited rest := by
        simp [invited, has]
      have taken := later credentials (ids ++ [candidate.id])
      rw [← List.append_cons] at taken
      rw [kept, added]
      exact taken

namespace GroupClient

/-! ### What is sent -/

/-- A member as the holder of a credential shows them. -/
def sealedMember (client : GroupClient) (role : Role) (credential : Credential) : Sealed.Member :=
  let shown := credential.presentation client.curve client.keys
  { userId := shown.identity.toList
    role
    profileKey := shown.profileKey.toList
    presentation := shown.toBytes }

/-- Lifts bans of candidates, adds the holders of credentials and invites others. -/
def bringIn (client : GroupClient) (unbanned : List Candidate) (inviter : Uuid)
    (credentials : List Credential) (ids : List ServiceId) : Sealed.Actions where
  newMembers := credentials.map fun credential =>
    { added := some (client.sealedMember .normal credential) }
  newInvites := ids.map fun id => { added := some (client.inviteOf id .normal (.aci inviter)) }
  liftedBans := unbanned.map fun candidate => client.target candidate.id

section

variable {client : GroupClient} {IsLog : client.curve.Point → ZMod Scalar.order → Prop}
  {credential : Credential}

theorem present_of_issued {server : Server} (lawful : client.curve.Lawful IsLog)
    (trusted : client.serverKey = server.publicKey client.curve)
    (issued : server.Issued client.curve credential) :
    client.present credential = .ok (credential.presentation client.curve client.keys) := by
  have signed := Credential.verify_issue lawful server credential.aci credential.profileKey
    credential.expiration
  rw [issued, ← trusted] at signed
  exact mapError_eq_ok_iff.2 (Credential.present_eq_ok_iff.2 ⟨signed, rfl⟩)

theorem memberOf_of_present (role : Role)
    (presents : client.present credential =
      .ok (credential.presentation client.curve client.keys)) :
    client.memberOf credential role = .ok (client.sealedMember role credential) := by
  rw [memberOf, presents]
  rfl

/-! ### What is read -/

theorem openPerson_presentation (lawful : client.curve.Lawful IsLog) (credential : Credential)
    (userId profileKey : Bytes) :
    client.openPerson userId profileKey
      (credential.presentation client.curve client.keys).toBytes =
        .ok ⟨credential.aci, credential.profileKey⟩ := by
  rw [openPerson_of_presented (Presentation.toBytes_ne_nil _)]
  apply openPresentation_toBytes
  · exact Credential.verify_presentation lawful client.keys credential
  · exact client.keys.openIdentity_sealIdentity (.aci credential.aci)
  · exact client.keys.openProfileKey_sealProfileKey credential.profileKey credential.aci

theorem openMember_sealedMember (lawful : client.curve.Lawful IsLog) (role : Role)
    (credential : Credential) :
    client.openMember 0 (client.sealedMember role credential) = .ok (credential.member role) := by
  rw [openMember, sealedMember, openPerson_presentation lawful]
  rfl

/-- An invite is read as it was meant, unless it was to give a role that invites cannot give. -/
theorem openInvite_inviteOf (client : GroupClient) {role : Role} (inviter id : ServiceId)
    (given : role = .normal ∨ role = .administrator) :
    (client.openInvite (client.inviteOf id role inviter)).outcome =
      .ok (client.keys.invite role inviter id) := by
  apply openInvite_eq_ok_iff.2
  refine ⟨?_, ?_, ?_, rfl, rfl⟩
  · exact client.openIdentityOrUnknown_sealIdentity id
  · exact client.openIdentityOrUnknown_sealIdentity inviter
  · rcases given with rfl | rfl <;> rfl

end

/-! ### From what is built to what is read -/

/-- Actions can be built, and their source is found to make a change with them, both as they are
sent and as the server passes them on. -/
def Conveys (client : GroupClient) (built : Except ClientError Sealed.Actions) (source : ServiceId)
    (change : Change) : Prop :=
  ∃ actions, built = .ok actions
    ∧ (client.openActions actions (some source)).outcome = .ok change
    ∧ (client.openActions actions.extracted (some source)).outcome = .ok change

end GroupClient

/-- Actions where the server filled in which phone number identity was invited. -/
def Sealed.Actions.withPni (actions : Sealed.Actions) (pni : IdentityCiphertext) : Sealed.Actions :=
  { actions with
    acceptedPniInvites := actions.acceptedPniInvites.map fun entry =>
      { entry with pni := pni.toList } }

namespace GroupClient

section

variable {client : GroupClient} {IsLog : client.curve.Point → ZMod Scalar.order → Prop}

theorem conveys_of_opens {built : Except ClientError Sealed.Actions} {actions : Sealed.Actions}
    {change : Change} {source : ServiceId} (made : built = .ok actions)
    (opens : client.Opens actions change)
    (editor : (change.acceptedPniInvites.getLast?.map (·.aci)).getD source.toBinary =
      change.editor) :
    client.Conveys built source change := by
  have opened := openActions_eq_ok_iff.2 ⟨opens, editor⟩
  exact ⟨actions, made, opened, openActions_extracted opened⟩

/-- Candidates are added and invited in the order they are given in. -/
theorem addCandidates_of_present {candidates : List Candidate}
    (presents : ∀ candidate ∈ candidates, ∀ credential ∈ candidate.credential,
      client.present credential = .ok (credential.presentation client.curve client.keys))
    (banned : List ServiceId) (inviter : Uuid) :
    client.addCandidates candidates banned inviter = .ok (client.bringIn
      (candidates.filter fun candidate => banned.contains candidate.id) inviter
      (joining candidates) (invited candidates)) := by
  -- whose bans are lifted is settled before the first candidate is taken
  apply foldlM_candidates (client.bringIn _ inviter)
  · intro candidate mem credential has credentials ids
    rw [addCandidate, has]
    simp only [memberOf_of_present _ (presents candidate mem credential has), bringIn,
      List.map_append]
    rfl
  · intro candidate mem has credentials ids
    rw [addCandidate, has]
    simp only [bringIn, List.map_append]
    rfl

/-! ### Builder by builder -/

theorem conveys_addCandidates (lawful : client.curve.Lawful IsLog) {candidates : List Candidate}
    (presents : ∀ candidate ∈ candidates, ∀ credential ∈ candidate.credential,
      client.present credential = .ok (credential.presentation client.curve client.keys))
    (banned : List ServiceId) (inviter : Uuid) (source : ServiceId) :
    client.Conveys (client.addCandidates candidates banned inviter) source {
      editor := source.toBinary
      newMembers := (joining candidates).map (·.member .normal)
      newInvites := (invited candidates).map (client.keys.invite .normal (.aci inviter))
      liftedBans := (candidates.filter fun candidate => banned.contains candidate.id).map
        fun candidate => { serviceId := candidate.id.toBinary } } := by
  refine conveys_of_opens (addCandidates_of_present presents banned inviter) ?_ rfl
  constructor
  case newMembers =>
    apply mapM_map_eq_ok
    intro credential _
    exact openMember_sealedMember lawful .normal credential
  case newInvites =>
    apply mapM_map_eq_ok
    intro id _
    exact client.openInvite_inviteOf (.aci inviter) id (.inl rfl)
  case liftedBans =>
    apply mapM_map_eq_ok
    intro candidate _
    rw [target, openIdentityOrUnknown_sealIdentity]
    rfl
  all_goals rfl

variable {credential : Credential}
  (presents : client.present credential = .ok (credential.presentation client.curve client.keys))

include presents

theorem conveys_requestToJoin (lawful : client.curve.Lawful IsLog) (source : ServiceId) :
    client.Conveys (client.requestToJoin credential) source {
      editor := source.toBinary
      newRequests := [credential.joinRequest] } := by
  let shown := credential.presentation client.curve client.keys
  have made : client.requestToJoin credential =
      .ok { newRequests := [{ added := some { presentation := shown.toBytes } }] } := by
    rw [requestToJoin, presents]
    rfl
  refine conveys_of_opens made ?_ rfl
  constructor
  case newRequests =>
    -- the presentation is the only part of the request that is read
    refine mapM_eq_ok_iff.2 (.cons ?_ .nil)
    rw [require_some_bind, openRequest, openPerson_presentation lawful]
    rfl
  all_goals rfl

theorem conveys_joinByLink (lawful : client.curve.Lawful IsLog) (source : ServiceId) :
    client.Conveys (client.joinByLink credential) source {
      editor := source.toBinary
      newMembers := [credential.member .normal] } := by
  have made : client.joinByLink credential = .ok { newMembers :=
      [{ added := some (client.sealedMember .normal credential), viaInviteLink := true }] } := by
    rw [joinByLink, memberOf_of_present .normal presents]
    rfl
  refine conveys_of_opens made ?_ rfl
  constructor
  case newMembers =>
    refine mapM_eq_ok_iff.2 (.cons ?_ .nil)
    exact openMember_sealedMember lawful .normal credential
  all_goals rfl

theorem conveys_changeProfileKey (lawful : client.curve.Lawful IsLog) (source : ServiceId) :
    client.Conveys (client.changeProfileKey credential) source {
      editor := source.toBinary
      profileKeyChanges := [credential.member .unknown] } := by
  let shown := credential.presentation client.curve client.keys
  have made : client.changeProfileKey credential =
      .ok { profileKeyChanges := [{ presentation := shown.toBytes }] } := by
    rw [changeProfileKey, presents]
    rfl
  refine conveys_of_opens made ?_ rfl
  constructor
  case profileKeyChanges =>
    refine mapM_eq_ok_iff.2 (.cons ?_ .nil)
    rw [openProfileKeyChange, openPerson_presentation lawful]
    rfl
  all_goals rfl

theorem conveys_acceptInvite (lawful : client.curve.Lawful IsLog) (source : ServiceId) :
    client.Conveys (client.acceptInvite credential) source {
      editor := source.toBinary
      acceptedInvites := [credential.member .normal] } := by
  let shown := credential.presentation client.curve client.keys
  have made : client.acceptInvite credential =
      .ok { acceptedInvites := [{ presentation := shown.toBytes }] } := by
    rw [acceptInvite, presents]
    rfl
  refine conveys_of_opens made ?_ rfl
  constructor
  case acceptedInvites =>
    refine mapM_eq_ok_iff.2 (.cons ?_ .nil)
    rw [openAcceptance, openPerson_presentation lawful]
    rfl
  all_goals rfl

/-- Whoever accepts an invite to a phone number identity does so as an account, whatever the source.
-/
theorem conveys_acceptPniInvite (lawful : client.curve.Lawful IsLog) (pni : Uuid)
    (source : ServiceId) :
    client.Conveys
      ((·.withPni (client.keys.sealIdentity (.pni pni))) <$> client.acceptPniInvite credential)
      source {
        editor := (ServiceId.aci credential.aci).toBinary
        acceptedPniInvites :=
          [{ credential.member .normal with pni := (ServiceId.pni pni).toBinary }] } := by
  let shown := credential.presentation client.curve client.keys
  have made :
      (·.withPni (client.keys.sealIdentity (.pni pni))) <$> client.acceptPniInvite credential =
        .ok { acceptedPniInvites := [{
          presentation := shown.toBytes
          pni := (client.keys.sealIdentity (.pni pni)).toList }] } := by
    rw [acceptPniInvite, presents]
    rfl
  refine conveys_of_opens made ?_ rfl
  constructor
  case acceptedPniInvites =>
    -- the account comes from the presentation, the phone number identity from the server
    refine mapM_eq_ok_iff.2 (.cons ?_ .nil)
    rw [openPniAcceptance, openPerson_presentation lawful, openIdentity_sealIdentity]
    rfl
  all_goals rfl

end

/-- Actions built with credentials that the server issued decrypt to what they were built for,
whoever their source is: those who come in by name or by an invite, in the order they were given,
and whose bans are lifted; a request; someone who joins by the link; a profile key; an acceptance;
and, once the server filled in the identity that was invited, an acceptance as the account behind
it. -/
theorem conveys_of_issued {client : GroupClient}
    {IsLog : client.curve.Point → ZMod Scalar.order → Prop} {server : Server}
    (lawful : client.curve.Lawful IsLog)
    (trusted : client.serverKey = server.publicKey client.curve) {candidates : List Candidate}
    (qualified : ∀ candidate ∈ candidates, ∀ credential ∈ candidate.credential,
      server.Issued client.curve credential)
    {credential : Credential} (issued : server.Issued client.curve credential)
    (banned : List ServiceId) (inviter pni : Uuid) (source : ServiceId) :
    client.Conveys (client.addCandidates candidates banned inviter) source {
        editor := source.toBinary
        newMembers := (joining candidates).map (·.member .normal)
        newInvites := (invited candidates).map (client.keys.invite .normal (.aci inviter))
        liftedBans := (candidates.filter fun candidate => banned.contains candidate.id).map
          fun candidate => { serviceId := candidate.id.toBinary } }
      ∧ client.Conveys (client.requestToJoin credential) source {
        editor := source.toBinary
        newRequests := [credential.joinRequest] }
      ∧ client.Conveys (client.joinByLink credential) source {
        editor := source.toBinary
        newMembers := [credential.member .normal] }
      ∧ client.Conveys (client.changeProfileKey credential) source {
        editor := source.toBinary
        profileKeyChanges := [credential.member .unknown] }
      ∧ client.Conveys (client.acceptInvite credential) source {
        editor := source.toBinary
        acceptedInvites := [credential.member .normal] }
      ∧ client.Conveys
        ((·.withPni (client.keys.sealIdentity (.pni pni))) <$> client.acceptPniInvite credential)
        source {
          editor := (ServiceId.aci credential.aci).toBinary
          acceptedPniInvites :=
            [{ credential.member .normal with pni := (ServiceId.pni pni).toBinary }] } := by
  have presents := present_of_issued lawful trusted issued
  refine ⟨?_, conveys_requestToJoin presents lawful source,
    conveys_joinByLink presents lawful source, conveys_changeProfileKey presents lawful source,
    conveys_acceptInvite presents lawful source, conveys_acceptPniInvite presents lawful pni source⟩
  apply conveys_addCandidates lawful
  intro candidate mem credential has
  exact present_of_issued lawful trusted (qualified candidate mem credential has)

end GroupClient

namespace Sample

/-- A client that trusts the issuer, on the curve that looks like Ristretto. -/
def holder : GroupClient where
  curve := lookalike
  serverKey := issuer.publicKey Ristretto.curve
  keys := groupKeys

/-- Someone with a credential, an account without one and a phone number identity. -/
def candidates : List Candidate :=
  [credential.candidate, { id := .aci (uuid 2) }, { id := .pni (uuid 3) }]

/-- Two of the candidates come in although they were banned, and one banned account stays away. -/
theorem conveys_of_issued_sample :
    issuer.Issued holder.curve credential
      ∧ holder.Conveys
        (holder.addCandidates candidates [.aci (uuid 1), .pni (uuid 3), .aci (uuid 9)] (uuid 5))
        (.pni (uuid 4)) {
          editor := pni 4
          newMembers := [member 1]
          newInvites := [
            groupKeys.invite .normal (.aci (uuid 5)) (.aci (uuid 2)),
            groupKeys.invite .normal (.aci (uuid 5)) (.pni (uuid 3))]
          liftedBans := [{ serviceId := aci 1 }, { serviceId := pni 3 }] }
      ∧ holder.Conveys
        ((·.withPni (groupKeys.sealIdentity (.pni (uuid 4)))) <$> holder.acceptPniInvite credential)
        (.pni (uuid 4)) {
          editor := aci 1
          acceptedPniInvites := [{ member 1 with pni := pni 4 }] } := by
  have lawful : holder.curve.Lawful fun (a : Scalar) e => (a.value : ZMod Scalar.order) = e :=
    lawful_lookalike
  have trusted : holder.serverKey = issuer.publicKey holder.curve := publicKey_issuer.symm
  have issued : issuer.Issued holder.curve credential := issue_credential
  have qualified : ∀ candidate ∈ candidates, ∀ credential ∈ candidate.credential,
      issuer.Issued holder.curve credential := by
    intro candidate mem shown has
    simp only [candidates, List.mem_cons, List.not_mem_nil, or_false] at mem
    -- of the three candidates only the first has a credential
    rcases mem with rfl | rfl | rfl
    · rw [← Option.some.inj has]
      exact issued
    · cases has
    · cases has
  obtain ⟨added, -, -, -, -, accepted⟩ := GroupClient.conveys_of_issued lawful trusted qualified
    issued [.aci (uuid 1), .pni (uuid 3), .aci (uuid 9)] (uuid 5) (uuid 4) (.pni (uuid 4))
  exact ⟨issued, added, accepted⟩

end Sample

end SealedGroups
