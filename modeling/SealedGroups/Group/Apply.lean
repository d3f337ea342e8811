import SealedGroups.Group.Lookup

/-!
# Applying a change

A change is applied slot by slot in the order of the slots, entry by entry within one: members come
in before others go out, invites are made before they are revoked or accepted. An entry about
someone the group never had fails the whole change; one that only removes what is already gone is
noted and passed over. Where several entries of a list match, the first of them is meant.

The attributes do not touch the lists, so they are set together in one step (`setAttributes`).
-/

namespace SealedGroups

/-- Why a change does not fit the state of the group. The local state is stale then. -/
inductive ApplyError where
  | revisionMismatch (group change : UInt32)
  | memberNotFound (id : Bytes)
  | inviteNotFound (id : Bytes)
  | alreadyMember (id : Bytes)
  | unknownRole (role : Role)
deriving DecidableEq

def ApplyError.message : ApplyError → String
  | .revisionMismatch group change =>
    s!"change to revision {change.toNat} does not follow group revision {group.toNat}"
  | .memberNotFound id => s!"member {ServiceId.display id} is not in the group"
  | .inviteNotFound id => s!"pending member {ServiceId.display id} is not in the group"
  | .alreadyMember id => s!"invited {ServiceId.display id} is already a full member"
  | .unknownRole role => s!"unknown role {role.code.toInt}"

/-- Changes the first entry that fits. -/
def modifyFirst {α : Type} (fits : α → Bool) (f : α → α) : List α → List α
  | [] => []
  | x :: rest => if fits x then f x :: rest else x :: modifyFirst fits f rest

/-- A right that a change sets, or else the one held before. -/
def Access.orKeep (new old : Access) : Access :=
  if new.isSet then new else old

namespace Snapshot

/-! ### Members -/

/-- Puts a member in the place of the one with the same account, or else at the end. -/
def putMember (group : Snapshot) (member : Member) : Snapshot :=
  if group.members.any (·.aci == member.aci) then
    { group with members := modifyFirst (·.aci == member.aci) (fun _ => member) group.members }
  else { group with members := group.members ++ [member] }

/-- Adds members. Whoever is added needs no invite and no request any more. -/
def addMembers (group : Snapshot) (new : List Member) : Snapshot :=
  let group := new.foldl putMember group
  { group with
    invites := group.invites.filter fun invite => !new.any (·.aci == invite.invitee)
    requests := group.requests.filter fun request => !new.any (·.aci == request.aci) }

def removeMember (group : Snapshot) (aci : Bytes) : Noted ApplyError Snapshot :=
  if group.members.any (·.aci == aci) then
    pure { group with members := group.members.eraseP (·.aci == aci) }
  else .fail (.memberNotFound aci)

/-- Changes a member, if the account is one. -/
def modifyMember (group : Snapshot) (aci : Bytes) (f : Member → Member) :
    Noted ApplyError Snapshot :=
  if group.members.any (·.aci == aci) then
    pure { group with members := modifyFirst (·.aci == aci) f group.members }
  else .fail (.memberNotFound aci)

def changeRole (group : Snapshot) (entry : RoleChange) : Noted ApplyError Snapshot :=
  if entry.role.isHeld then group.modifyMember entry.aci ({ · with role := entry.role })
  else .fail (.unknownRole entry.role)

def changeProfileKey (group : Snapshot) (entry : Member) : Noted ApplyError Snapshot :=
  group.modifyMember entry.aci ({ · with profileKey := entry.profileKey })

/-! ### Invites -/

/-- Invites someone who is no member. An invite with the same ciphertext stays as it is. -/
def addInvite (group : Snapshot) (invite : Invite) : Noted ApplyError Snapshot :=
  if !invite.invitee.isEmpty && group.members.any (·.aci == invite.invitee) then
    .fail (.alreadyMember invite.invitee)
  else if group.invites.any (·.ciphertext == invite.ciphertext) then pure group
  else pure { group with invites := group.invites ++ [invite] }

def revokeInvite (group : Snapshot) (entry : Revocation) : Noted ApplyError Snapshot :=
  if group.invites.any (·.ciphertext == entry.ciphertext) then
    pure { group with invites := group.invites.eraseP (·.ciphertext == entry.ciphertext) }
  else do
    .warn s!"deleted pending member {ServiceId.display entry.invitee} not found in group"
    return group

/-- Turns the invite of an identity into a member. -/
def acceptInviteOf (id : Bytes) (group : Snapshot) (member : Member) :
    Noted ApplyError Snapshot :=
  if group.invites.any (·.invitee == id) then
    pure { group with
      invites := group.invites.eraseP (·.invitee == id)
      members := group.members ++ [member] }
  else .fail (.inviteNotFound id)

def acceptInvite (group : Snapshot) (member : Member) : Noted ApplyError Snapshot :=
  group.acceptInviteOf member.aci member

/-- An invite to a phone number identity is accepted by the account behind it. -/
def acceptPniInvite (group : Snapshot) (member : Member) : Noted ApplyError Snapshot :=
  group.acceptInviteOf member.pni member

/-! ### Join requests -/

def addRequests (group : Snapshot) (new : List JoinRequest) : Snapshot :=
  { group with requests := group.requests ++ new }

def refuseRequest (group : Snapshot) (aci : Bytes) : Noted ApplyError Snapshot :=
  if group.requests.any (·.aci == aci) then
    pure { group with requests := group.requests.eraseP (·.aci == aci) }
  else do
    .warn s!"deleted requesting member {ServiceId.display aci} not found in group"
    return group

/-- Turns a request into a member who joins now. Without a role of its own an approval gives the
normal one. -/
def approveRequest (revision : UInt32) (group : Snapshot) (entry : Approval) :
    Noted ApplyError Snapshot :=
  let role := if entry.role = .unknown then .normal else entry.role
  if role.isHeld then
    match group.requests.find? (·.aci == entry.aci) with
    | some request =>
      pure { group with
        requests := group.requests.eraseP (·.aci == entry.aci)
        members := group.members ++
          [{ aci := request.aci, role, profileKey := request.profileKey, joinedAt := revision }] }
    | none => do
      .warn s!"approved requesting member {ServiceId.display entry.aci} not found in group"
      return group
  else .fail (.unknownRole role)

/-! ### Bans -/

def addBan (group : Snapshot) (ban : Ban) : Noted ApplyError Snapshot :=
  if group.bans.any (·.serviceId == ban.serviceId) then do
    .warn s!"banned member {ServiceId.display ban.serviceId} already on the ban list"
    return group
  else pure { group with bans := group.bans ++ [ban] }

def liftBan (group : Snapshot) (ban : Ban) : Noted ApplyError Snapshot :=
  if group.bans.any (·.serviceId == ban.serviceId) then
    pure { group with bans := group.bans.eraseP (·.serviceId == ban.serviceId) }
  else do
    .warn s!"unbanned member {ServiceId.display ban.serviceId} not found on the ban list"
    return group

/-! ### Attributes -/

/-- The rights after a change. A group without rights gets them when the first one is set. -/
def accessAfter (group : Snapshot) (change : Change) : Option AccessRules :=
  if change.attributesAccess.isSet || change.membersAccess.isSet
      || change.inviteLinkAccess.isSet then
    let old := group.access.getD {}
    some {
      attributes := change.attributesAccess.orKeep old.attributes
      members := change.membersAccess.orKeep old.members
      inviteLink := change.inviteLinkAccess.orKeep old.inviteLink }
  else group.access

/-- Gives every attribute that the change sets its new value. -/
def setAttributes (group : Snapshot) (change : Change) : Snapshot :=
  { group with
    title := (change.title.map (·.value)).getD group.title
    avatar := (change.avatar.map (·.value)).getD group.avatar
    timer := change.timer.orElse fun _ => group.timer
    access := group.accessAfter change
    linkPassword := if change.linkPassword.isEmpty then group.linkPassword else change.linkPassword
    description := (change.description.map (·.value)).getD group.description
    announcements :=
      if change.announcements.isSet then change.announcements else group.announcements }

/-! ### The whole change -/

/-- Applies a change, whatever the revisions are, and notes what was passed over. -/
def applyNoted (group : Snapshot) (change : Change) : Noted ApplyError Snapshot := do
  let group := { group with revision := change.revision }
  let group := group.addMembers change.newMembers
  let group ← change.removedMembers.foldlM removeMember group
  let group ← change.roleChanges.foldlM changeRole group
  let group ← change.profileKeyChanges.foldlM changeProfileKey group
  let group ← change.newInvites.foldlM addInvite group
  let group ← change.revokedInvites.foldlM revokeInvite group
  let group ← change.acceptedInvites.foldlM acceptInvite group
  let group := group.setAttributes change
  let group := group.addRequests change.newRequests
  let group ← change.refusedRequests.foldlM refuseRequest group
  let group ← change.approvedRequests.foldlM (approveRequest change.revision) group
  let group ← change.newBans.foldlM addBan group
  let group ← change.liftedBans.foldlM liftBan group
  change.acceptedPniInvites.foldlM acceptPniInvite group

/-- Applies a change, whatever the revisions are. -/
def apply (group : Snapshot) (change : Change) : Except ApplyError Snapshot :=
  (group.applyNoted change).outcome

/-- Applies a change that leads exactly one revision further, and notes what was passed over. -/
def applyNextNoted (group : Snapshot) (change : Change) : Noted ApplyError Snapshot :=
  if group.revision.toNat + 1 = change.revision.toNat then group.applyNoted change
  else .fail (.revisionMismatch group.revision change.revision)

/-- Applies a change that leads exactly one revision further. -/
def applyNext (group : Snapshot) (change : Change) : Except ApplyError Snapshot :=
  (group.applyNextNoted change).outcome

/-- The group without any trace of an account among members, invites and requests. The revision
changes only if there was one. -/
def withoutAccount (group : Snapshot) (aci : Uuid) (revision : UInt32) : Snapshot :=
  let members := group.members.filter (·.aci != aci.toList)
  let invites := group.invites.filter (·.invitee != aci.toList)
  let requests := group.requests.filter (·.aci != aci.toList)
  if members.length ≠ group.members.length ∨ invites.length ≠ group.invites.length
      ∨ requests.length ≠ group.requests.length then
    { group with members, invites, requests, revision }
  else group

end Snapshot

end SealedGroups
