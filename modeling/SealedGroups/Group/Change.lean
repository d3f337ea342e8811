import SealedGroups.Group.Snapshot

/-!
# A change in plaintext

A change is a list of entries for every kind of thing that can happen, and a new value for every
attribute that is set. It names identities by the same bytes as a snapshot does.
-/

namespace SealedGroups

structure RoleChange where
  aci : Bytes := []
  role : Role := .unknown
deriving DecidableEq

instance : Wire.Record RoleChange where
  layout := [⟨Bytes, .bytes 1⟩, ⟨Role, Role.slot 2⟩]
  toRow r := (r.aci, r.role, ())
  ofRow | (aci, role, ()) => ⟨aci, role⟩

/-- A join request that is granted, and the role to join with. -/
structure Approval where
  aci : Bytes := []
  role : Role := .unknown
deriving DecidableEq

instance : Wire.Record Approval where
  layout := [⟨Bytes, .bytes 1⟩, ⟨Role, Role.slot 2⟩]
  toRow r := (r.aci, r.role, ())
  ofRow | (aci, role, ()) => ⟨aci, role⟩

/-- An invite that is taken back. -/
structure Revocation where
  invitee : Bytes := []
  ciphertext : Bytes := []
deriving DecidableEq

instance : Wire.Record Revocation where
  layout := [⟨Bytes, .bytes 1⟩, ⟨Bytes, .bytes 2⟩]
  toRow r := (r.invitee, r.ciphertext, ())
  ofRow | (invitee, ciphertext, ()) => ⟨invitee, ciphertext⟩

structure Text where
  value : String := ""
deriving DecidableEq

instance : Wire.Record Text where
  layout := [⟨String, .text 1⟩]
  toRow r := (r.value, ())
  ofRow | (value, ()) => ⟨value⟩

/-- One step from a revision to the next. Every slot but the editor and the revision is a part of
the change; entries stand in the order of the encrypted actions they come from. -/
structure Change where
  editor : Bytes := []
  revision : UInt32 := 0
  newMembers : List Member := []
  removedMembers : List Bytes := []
  roleChanges : List RoleChange := []
  profileKeyChanges : List Member := []
  newInvites : List Invite := []
  revokedInvites : List Revocation := []
  acceptedInvites : List Member := []
  title : Option Text := none
  avatar : Option Text := none
  timer : Option Timer := none
  attributesAccess : Access := .unknown
  membersAccess : Access := .unknown
  inviteLinkAccess : Access := .unknown
  newRequests : List JoinRequest := []
  refusedRequests : List Bytes := []
  approvedRequests : List Approval := []
  linkPassword : Bytes := []
  description : Option Text := none
  announcements : Announcements := .unknown
  newBans : List Ban := []
  liftedBans : List Ban := []
  /-- Invites to a phone number identity, accepted by the account behind it. -/
  acceptedPniInvites : List Member := []
deriving DecidableEq

instance : Wire.Record Change where
  layout := [
    ⟨Bytes, .bytes 1⟩, ⟨UInt32, .uint32 2⟩, ⟨List Member, .messages 3⟩, ⟨List Bytes, .bytesList 4⟩,
    ⟨List RoleChange, .messages 5⟩, ⟨List Member, .messages 6⟩, ⟨List Invite, .messages 7⟩,
    ⟨List Revocation, .messages 8⟩, ⟨List Member, .messages 9⟩, ⟨Option Text, .optional 10⟩,
    ⟨Option Text, .optional 11⟩, ⟨Option Timer, .optional 12⟩, ⟨Access, Access.slot 13⟩,
    ⟨Access, Access.slot 14⟩, ⟨Access, Access.slot 15⟩, ⟨List JoinRequest, .messages 16⟩,
    ⟨List Bytes, .bytesList 17⟩, ⟨List Approval, .messages 18⟩, ⟨Bytes, .bytes 19⟩,
    ⟨Option Text, .optional 20⟩, ⟨Announcements, Announcements.slot 21⟩, ⟨List Ban, .messages 22⟩,
    ⟨List Ban, .messages 23⟩, ⟨List Member, .messages 24⟩]
  toRow r := (
    r.editor, r.revision, r.newMembers, r.removedMembers, r.roleChanges, r.profileKeyChanges,
    r.newInvites, r.revokedInvites, r.acceptedInvites, r.title, r.avatar, r.timer,
    r.attributesAccess, r.membersAccess, r.inviteLinkAccess, r.newRequests, r.refusedRequests,
    r.approvedRequests, r.linkPassword, r.description, r.announcements, r.newBans, r.liftedBans,
    r.acceptedPniInvites, ())
  ofRow
    | (editor, revision, newMembers, removedMembers, roleChanges, profileKeyChanges, newInvites,
    revokedInvites, acceptedInvites, title, avatar, timer, attributesAccess, membersAccess,
    inviteLinkAccess, newRequests, refusedRequests, approvedRequests, linkPassword, description,
    announcements, newBans, liftedBans, acceptedPniInvites, ()) =>
      ⟨editor, revision, newMembers, removedMembers, roleChanges, profileKeyChanges, newInvites,
      revokedInvites, acceptedInvites, title, avatar, timer, attributesAccess, membersAccess,
      inviteLinkAccess, newRequests, refusedRequests, approvedRequests, linkPassword, description,
      announcements, newBans, liftedBans, acceptedPniInvites⟩

end SealedGroups
