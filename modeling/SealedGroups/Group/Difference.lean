import SealedGroups.Group.Change

/-!
# The change between two snapshots

When only two snapshots of a group are known, a change is inferred that explains how the second came
out of the first. It has no editor. Members are sorted by how they came in (`Entrance`); an approval
can only say the role to join with, so it explains a member only if everything else is as the
requester sent it. What no change can say is left out: another join revision of someone who stays, a
password taken away, another timestamp of a ban that stays.
-/

namespace SealedGroups

/-- How a member of the later snapshot came in. -/
inductive Entrance where
  | stayed (previous : Member)
  | acceptedInvite
  | acceptedPniInvite
  | approved
  | added

namespace Change

/-- How a member of the later snapshot came in, going by the earlier one. -/
def entrance (old new : Snapshot) (member : Member) : Entrance :=
  match old.members.find? (·.aci == member.aci) with
  | some previous => .stayed previous
  | none =>
    if old.invites.any (·.invitee == member.aci) then .acceptedInvite
    else if !member.pni.isEmpty && old.invites.any (·.invitee == member.pni) then
      .acceptedPniInvite
    else if old.requests.any fun request =>
        request.aci == member.aci && request.profileKey == member.profileKey
          && member.joinedAt == new.revision then
      .approved
    else .added

/-- A right that the later snapshot has and the earlier one had not. -/
def newAccess (old new : Access) : Access :=
  if old ≠ new ∧ new ≠ .unknown then new else .unknown

/-- A text that the later snapshot has and the earlier one had not. -/
def newText (old new : String) : Option Text :=
  if old = new then none else some ⟨new⟩

/-- A change that leads from one snapshot to another. -/
def between (old new : Snapshot) : Change :=
  let entrance := entrance old new
  let oldAccess := old.access.getD {}
  let newAccessRules := new.access.getD {}
  let newMembers := new.members.filter fun m => entrance m matches .added
  let acceptedInvites := new.members.filter fun m => entrance m matches .acceptedInvite
  let acceptedPniInvites := new.members.filter fun m => entrance m matches .acceptedPniInvite
  let approved := new.members.filter fun m => entrance m matches .approved
  { revision := new.revision
    newMembers
    removedMembers :=
      (old.members.filter fun m => !new.members.any (·.aci == m.aci)).map (·.aci)
    roleChanges := new.members.filterMap fun m =>
      match entrance m with
      | .stayed previous => if previous.role = m.role then none else some ⟨m.aci, m.role⟩
      | _ => none
    profileKeyChanges := new.members.filterMap fun m =>
      match entrance m with
      | .stayed previous =>
        if previous.profileKey = m.profileKey then none
        else some { aci := m.aci, profileKey := m.profileKey }
      | _ => none
    newInvites := new.invites.filter fun invite =>
      !old.invites.any (·.ciphertext == invite.ciphertext)
    revokedInvites :=
      (old.invites.filter fun invite =>
        !new.invites.any (·.ciphertext == invite.ciphertext)
          && !(!invite.invitee.isEmpty && new.members.any (·.aci == invite.invitee))
          && !acceptedPniInvites.any (·.pni == invite.invitee)).map
        fun invite => ⟨invite.invitee, invite.ciphertext⟩
    acceptedInvites
    title := newText old.title new.title
    avatar := newText old.avatar new.avatar
    timer := if old.timer = new.timer then none else some (new.timer.getD {})
    attributesAccess := newAccess oldAccess.attributes newAccessRules.attributes
    membersAccess := newAccess oldAccess.members newAccessRules.members
    inviteLinkAccess := newAccess oldAccess.inviteLink newAccessRules.inviteLink
    newRequests := new.requests.filter fun request => !old.requests.contains request
    refusedRequests :=
      (old.requests.filter fun request =>
        !approved.any (·.aci == request.aci)
          && !newMembers.any (·.aci == request.aci)
          && !new.requests.contains request).map (·.aci)
    approvedRequests := approved.map fun m => ⟨m.aci, m.role⟩
    linkPassword := if old.linkPassword = new.linkPassword then [] else new.linkPassword
    description := newText old.description new.description
    announcements :=
      if old.announcements ≠ new.announcements ∧ new.announcements.isSet then new.announcements
      else .unknown
    newBans := new.bans.filter fun ban => !old.bans.any (·.serviceId == ban.serviceId)
    liftedBans := old.bans.filter fun ban => !new.bans.any (·.serviceId == ban.serviceId)
    acceptedPniInvites }

end Change

end SealedGroups
