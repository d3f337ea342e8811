import SealedGroups.Client.Bans

/-!
# Changing the membership

Actions by which people come into a group, change in it and leave it. Whoever has a credential can
be added as a member, by a presentation of it; others can only be invited. Nothing is compared with
the state of the group, except that banning goes by the ban list it is given.
-/

namespace SealedGroups

/-- Someone who may be added to a group. -/
structure Candidate where
  id : ServiceId
  credential : Option Credential := none
deriving DecidableEq

def Credential.candidate (credential : Credential) : Candidate where
  id := .aci credential.aci
  credential := some credential

namespace GroupClient

variable (client : GroupClient)

/-! ### Parts of actions -/

def present (credential : Credential) : Except ClientError Presentation :=
  (credential.present client.curve client.serverKey client.keys).mapError .sealing

/-- A member who shows a credential. -/
def memberOf (credential : Credential) (role : Role) : Except ClientError Sealed.Member := do
  let presentation ← client.present credential
  return {
    userId := presentation.identity.toList
    role
    profileKey := presentation.profileKey.toList
    presentation := presentation.toBytes }

/-- An invite of someone with a role to join with. -/
def inviteOf (id : ServiceId) (role : Role) (inviter : ServiceId) : Sealed.Invite where
  member := some { userId := (client.keys.sealIdentity id).toList, role }
  inviter := (client.keys.sealIdentity inviter).toList

def grant (aci : Uuid) (role : Role) : Sealed.RoleGrant :=
  { userId := (client.keys.sealIdentity (.aci aci)).toList, role }

/-! ### Coming in -/

/-- The action that brings in a candidate, added to what was decided on before. -/
def addCandidate (inviter : Uuid) (actions : Sealed.Actions) (candidate : Candidate) :
    Except ClientError Sealed.Actions :=
  match candidate.credential with
  | some credential => do
    let member ← client.memberOf credential .normal
    return { actions with newMembers := actions.newMembers ++ [{ added := some member }] }
  | none =>
    let invite := client.inviteOf candidate.id .normal (.aci inviter)
    .ok { actions with newInvites := actions.newInvites ++ [{ added := some invite }] }

/-- Adds the candidates that have a credential and invites the others. Bans of candidates are
lifted. -/
def addCandidates (candidates : List Candidate) (banned : List ServiceId) (inviter : Uuid) :
    Except ClientError Sealed.Actions :=
  let unbanned := candidates.filter fun candidate => banned.contains candidate.id
  candidates.foldlM (client.addCandidate inviter)
    { liftedBans := unbanned.map fun candidate => client.target candidate.id }

/-- Asks to be let in through the invite link. -/
def requestToJoin (credential : Credential) : Except ClientError Sealed.Actions := do
  let presentation := (← client.present credential).toBytes
  return { newRequests := [{ added := some { presentation } }] }

/-- Joins through an invite link that needs no approval. -/
def joinByLink (credential : Credential) : Except ClientError Sealed.Actions := do
  let member ← client.memberOf credential .normal
  return { newMembers := [{ added := some member, viaInviteLink := true }] }

def approveRequests (requesters : List Uuid) : Sealed.Actions :=
  { approvedRequests := requesters.map (client.grant · .normal) }

def acceptInvite (credential : Credential) : Except ClientError Sealed.Actions := do
  let presentation := (← client.present credential).toBytes
  return { acceptedInvites := [{ presentation }] }

/-- Accepts an invite to a phone number identity as the account behind it. -/
def acceptPniInvite (credential : Credential) : Except ClientError Sealed.Actions := do
  let presentation := (← client.present credential).toBytes
  return { acceptedPniInvites := [{ presentation }] }

/-! ### Changing -/

def changeRole (aci : Uuid) (role : Role) : Sealed.Actions :=
  { roleChanges := [client.grant aci role] }

def changeProfileKey (credential : Credential) : Except ClientError Sealed.Actions := do
  let presentation := (← client.present credential).toBytes
  return { profileKeyChanges := [{ presentation }] }

/-! ### Going out -/

/-- Bans accounts by the ban list of the group, or does nothing. -/
def banIf {ε : Type} (alsoBan : Bool) (acis : List Uuid) (bans : List Ban) :
    Noted ε Sealed.Actions :=
  if alsoBan then client.ban (acis.map .aci) false bans else pure {}

/-- Refuses to let requesters in, and bans them if asked to. -/
def refuseRequests {ε : Type} (requesters : List Uuid) (alsoBan : Bool) (bans : List Ban) :
    Noted ε Sealed.Actions := do
  let actions ← client.banIf alsoBan requesters bans
  return { actions with refusedRequests := requesters.map (client.target <| .aci ·) }

/-- Removes members, and bans them if asked to. -/
def removeMembers {ε : Type} (members : List Uuid) (alsoBan : Bool) (bans : List Ban) :
    Noted ε Sealed.Actions := do
  let actions ← client.banIf alsoBan members bans
  return { actions with removedMembers := members.map (client.target <| .aci ·) }

/-- Leaves the group after making others administrators. -/
def leave (self : Uuid) (newAdministrators : List Uuid) : Sealed.Actions where
  removedMembers := [client.target (.aci self)]
  roleChanges := newAdministrators.map (client.grant · .administrator)

/-! ### Replacing those who come in -/

/-- Puts the member that a candidate makes into an action, with the role that the action gave. -/
def replaceMember (entry : Sealed.AddMember) (candidate : Candidate) :
    Except ClientError Sealed.AddMember :=
  match candidate.credential with
  | none => .error (.missingCredential candidate.id)
  | some credential => do
    let role := (entry.added.map (·.role.declared)).getD .normal
    return { entry with added := some (← client.memberOf credential role) }

/-- Puts fresh presentations into the actions that add members, one candidate for each. -/
def replaceMembers (actions : Sealed.Actions) (candidates : List Candidate) :
    Except ClientError Sealed.Actions :=
  if actions.newMembers.length = candidates.length then do
    let newMembers ← (actions.newMembers.zip candidates).mapM fun (entry, candidate) =>
      client.replaceMember entry candidate
    return { actions with newMembers }
  else .error (.candidateMismatch actions.newMembers.length candidates.length)

end GroupClient

/-- Takes back invites. They are named by ciphertext, as not every invitee can be decrypted. -/
def Sealed.Actions.revokeInvites (invitees : List IdentityCiphertext) : Sealed.Actions :=
  { revokedInvites := invitees.map fun invitee => { userId := invitee.toList } }

end SealedGroups
