import SealedGroups.Client.Attributes
import SealedGroups.Group.Change
import SealedGroups.Sealed.Actions

/-!
# Decrypting groups and changes

Records are decrypted entry by entry, in the order they have. An identity that comes with a profile
key, or that an action on a member names, must decrypt, or else the whole record is refused. An
identity in an invite or a ban need not: it is noted, and the entry stays with empty bytes, so that
one bad entry does not hide the others. A ciphertext of the wrong length is refused in any place.
-/

namespace SealedGroups.GroupClient

/-! ### Identities -/

/-- The identity behind a ciphertext that must decrypt. -/
def openIdentity (client : GroupClient) (part : Part) (bytes : Bytes) :
    Except ClientError ServiceId :=
  SealingError.inPart part do
    client.keys.openIdentity (← fixedSize 57 bytes)

/-- The account behind a ciphertext that must decrypt to one. -/
def openAci (client : GroupClient) (part : Part) (bytes : Bytes) : Except ClientError Uuid := do
  match ← client.openIdentity part bytes with
  | .aci uuid => return uuid
  | .pni _ => throw (.invalidState part .notAnAci)

/-- The binary form of the identity behind a ciphertext, or nothing if it does not decrypt. -/
def openIdentityOrUnknown (client : GroupClient) (bytes : Bytes) : Noted ClientError Bytes :=
  if bytes.isEmpty then pure []
  else
    match fixedSize 57 bytes with
    | .error e => .fail (.invalidState .identifier (.sealing e))
    | .ok ciphertext =>
      match client.keys.openIdentity ciphertext with
      | .ok id => pure id.toBinary
      | .error e => do
        .warn s!"could not decrypt identifier: {e.message}"
        return []

structure Person where
  aci : Uuid
  profileKey : ProfileKey
deriving DecidableEq

def openPresentation (client : GroupClient) (bytes : Bytes) : Except ClientError Person :=
  SealingError.inPart .presentation (do
    let presentation ← (Presentation.ofBytes bytes).mapError .decode
    presentation.verify client.curve client.publicParams
    return (presentation, ← client.keys.openIdentity presentation.identity)) >>= fun
  | (presentation, .aci aci) => do
    let profileKey ← SealingError.inPart .presentation
      (client.keys.openProfileKey presentation.profileKey aci)
    return { aci, profileKey }
  | (_, .pni _) => throw (.invalidState .presentation .notAnAci)

/-- Who is behind a presentation, or without one behind the two ciphertexts taken from it. -/
def openPerson (client : GroupClient) (userId profileKey presentation : Bytes) :
    Except ClientError Person := do
  if presentation.isEmpty then
    let aci ← client.openAci .member userId
    let profileKey ← SealingError.inPart .profileKey do
      client.keys.openProfileKey (← fixedSize 72 profileKey) aci
    return { aci, profileKey }
  else client.openPresentation presentation

/-! ### Entries -/

def openMember (client : GroupClient) (joinedAt : UInt32) (member : Sealed.Member) :
    Except ClientError Member := do
  let person ← client.openPerson member.userId member.profileKey member.presentation
  return {
    aci := person.aci.toList
    role := member.role
    profileKey := person.profileKey.toList
    joinedAt }

/-- An invite; it gives the normal role unless it says administrator. -/
def openInvite (client : GroupClient) (invite : Sealed.Invite) : Noted ClientError Invite := do
  let member := invite.member.getD {}
  let invitee ← client.openIdentityOrUnknown member.userId
  let inviter ← client.openIdentityOrUnknown invite.inviter
  return {
    invitee
    role := if member.role = .administrator then .administrator else .normal
    inviter
    timestamp := invite.timestamp
    ciphertext := member.userId }

def openRequest (client : GroupClient) (request : Sealed.JoinRequest) :
    Except ClientError JoinRequest := do
  let person ← client.openPerson request.userId request.profileKey request.presentation
  return {
    aci := person.aci.toList
    profileKey := person.profileKey.toList
    timestamp := request.timestamp }

def openBan (client : GroupClient) (ban : Sealed.Ban) : Noted ClientError Ban := do
  return { serviceId := ← client.openIdentityOrUnknown ban.userId, timestamp := ban.timestamp }

/-- A part of an action that must be there. -/
def require {α : Type} (part : Part) : Option α → Except ClientError α
  | some a => .ok a
  | none => .error (.invalidState part .missing)

/-! ### Groups -/

def openGroup (client : GroupClient) (group : Sealed.Group) : Noted ClientError Snapshot := do
  let members ← group.members.mapM fun member => client.openMember member.joinedAt member
  let invites ← group.invites.mapM client.openInvite
  let requests ← group.requests.mapM fun request => client.openRequest request
  let bans ← group.bans.mapM client.openBan
  return {
    title := ← client.keys.openTitle group.title
    avatar := group.avatar
    timer := some { duration := ← client.keys.openTimer group.timer }
    access := group.access
    revision := group.revision
    members
    invites
    requests
    linkPassword := group.linkPassword
    description := ← client.keys.openDescription group.description
    announcements := .ofBool group.announcementsOnly
    bans }

def openJoinInfo {ε : Type} (client : GroupClient) (info : Sealed.JoinInfo) :
    Noted ε JoinInfo := do
  return {
    title := ← client.keys.openTitle info.title
    avatar := info.avatar
    memberCount := info.memberCount
    inviteLink := info.inviteLink
    revision := info.revision
    needsApproval := info.needsApproval
    description := ← client.keys.openDescription info.description }

/-! ### Changes -/

def openProfileKeyChange (client : GroupClient) (entry : Sealed.Identity) :
    Except ClientError Member := do
  let person ← client.openPerson entry.userId entry.profileKey entry.presentation
  return { aci := person.aci.toList, profileKey := person.profileKey.toList }

/-- Someone who accepts an invite and joins with the normal role. -/
def openAcceptance (client : GroupClient) (revision : UInt32) (entry : Sealed.Identity) :
    Except ClientError Member := do
  let person ← client.openPerson entry.userId entry.profileKey entry.presentation
  return {
    aci := person.aci.toList
    role := .normal
    profileKey := person.profileKey.toList
    joinedAt := revision }

/-- An account that accepts an invite to its phone number identity. -/
def openPniAcceptance (client : GroupClient) (revision : UInt32) (entry : Sealed.PniIdentity) :
    Except ClientError Member := do
  let person ← client.openPerson entry.userId entry.profileKey entry.presentation
  match ← client.openIdentity .invitedPni entry.pni with
  | .aci _ => throw (.invalidState .invitedPni .notAPni)
  | .pni pni =>
    return {
      aci := person.aci.toList
      role := .normal
      profileKey := person.profileKey.toList
      joinedAt := revision
      pni := (ServiceId.pni pni).toBinary }

/-- Decrypts actions, entry by entry in the same order. If it is known who made the change, the
source in the actions is not looked at. Whoever accepted an invite to a phone number identity made
the change as an account. -/
def openActions (client : GroupClient) (actions : Sealed.Actions) (source : Option ServiceId) :
    Noted ClientError Change := do
  let revision := actions.revision
  let editor ← match source with
    | some id => pure id
    | none => liftM (client.openIdentity .editor actions.source)
  let newMembers ← actions.newMembers.mapM fun entry => do
    client.openMember revision (← require .addedMember entry.added)
  let removedMembers ← actions.removedMembers.mapM fun entry => do
    return (← client.openAci .removedMember entry.userId).toList
  let roleChanges ← actions.roleChanges.mapM fun entry => do
    return { aci := (← client.openAci .changedMember entry.userId).toList, role := entry.role }
  let profileKeyChanges ← actions.profileKeyChanges.mapM fun entry =>
    client.openProfileKeyChange entry
  let newInvites ← actions.newInvites.mapM fun entry => do
    client.openInvite (← require .addedInvite entry.added)
  let revokedInvites ← actions.revokedInvites.mapM fun entry => do
    return { invitee := ← client.openIdentityOrUnknown entry.userId, ciphertext := entry.userId }
  let acceptedInvites ← actions.acceptedInvites.mapM fun entry =>
    client.openAcceptance revision entry
  let title ← actions.title.mapM fun entry => do
    return { value := ← client.keys.openTitle entry.content }
  let timer ← actions.timer.mapM fun entry => do
    return { duration := ← client.keys.openTimer entry.content }
  let newRequests ← actions.newRequests.mapM fun entry => do
    client.openRequest (← require .addedRequest entry.added)
  let refusedRequests ← actions.refusedRequests.mapM fun entry => do
    return (← client.openAci .refusedRequest entry.userId).toList
  let approvedRequests ← actions.approvedRequests.mapM fun entry => do
    return { aci := (← client.openAci .approvedRequest entry.userId).toList, role := entry.role }
  let description ← actions.description.mapM fun entry => do
    return { value := ← client.keys.openDescription entry.content }
  let newBans ← actions.newBans.mapM fun entry => do
    client.openBan (← require .addedBan entry.added)
  let liftedBans ← actions.liftedBans.mapM fun entry => do
    return { serviceId := ← client.openIdentityOrUnknown entry.userId }
  let acceptedPniInvites ← actions.acceptedPniInvites.mapM fun entry =>
    client.openPniAcceptance revision entry
  return {
    editor := (acceptedPniInvites.getLast?.map (·.aci)).getD editor.toBinary
    revision
    newMembers
    removedMembers
    roleChanges
    profileKeyChanges
    newInvites
    revokedInvites
    acceptedInvites
    title
    avatar := actions.avatar.map fun entry => { value := entry.location }
    timer
    attributesAccess := (actions.attributesAccess.map (·.access)).getD .unknown
    membersAccess := (actions.membersAccess.map (·.access)).getD .unknown
    inviteLinkAccess := (actions.inviteLinkAccess.map (·.access)).getD .unknown
    newRequests
    refusedRequests
    approvedRequests
    linkPassword := (actions.linkPassword.map (·.password)).getD []
    description
    announcements := (actions.announcementsOnly.map (.ofBool ·.announcementsOnly)).getD .unknown
    newBans
    liftedBans
    acceptedPniInvites }

def checkNotary (client : GroupClient) (change : Sealed.SignedChange) : Except ClientError Unit :=
  let outcome : Except SealingError Unit := do
    let signature ←
      (Schnorr.signatureOfBytes change.signature).mapError fun _ => .verificationFailed
    verifySignature client.curve client.serverKey change.actions signature
  outcome.mapError .verificationFailed

/-- Decrypts a change received from the server, after checking the signature if asked to. A change
of an epoch that is not understood is noted and ignored. -/
def openChange (client : GroupClient) (change : Sealed.SignedChange) (verify : Bool) :
    Noted ClientError (Option Change) :=
  let highest := client.config.highestEpoch
  if highest < change.epoch then do
    .warn (s!"ignoring group change of epoch {change.epoch.toNat}, "
      ++ s!"highest known epoch is {highest.toNat}")
    return none
  else do
    if verify then
      client.checkNotary change
    match Wire.Record.read? (R := Sealed.Actions) change.actions with
    | none => .fail .undecodable
    | some actions => some <$> client.openActions actions none

/-- The accounts that actions add as members, in order. -/
def openAddedMembers (client : GroupClient) (actions : Sealed.Actions) :
    Except ClientError (List Uuid) :=
  actions.newMembers.mapM fun entry => do
    let member ← require .addedMember entry.added
    return (← client.openPerson member.userId member.profileKey member.presentation).aci

end SealedGroups.GroupClient
