import SealedGroups.Sealed.Group

/-!
# Actions

A change as it is sent to the server: the same slots as a plaintext change, with ciphertexts and
presentations in place of identities, and attributes as encrypted blobs.
-/

namespace SealedGroups.Sealed

structure AddMember where
  added : Option Sealed.Member := none
  viaInviteLink : Bool := false
deriving DecidableEq

instance : Wire.Record AddMember where
  layout := [⟨Option Sealed.Member, .optional 1⟩, ⟨Bool, .bool 2⟩]
  toRow r := (r.added, r.viaInviteLink, ())
  ofRow | (added, viaInviteLink, ()) => ⟨added, viaInviteLink⟩

/-- Names whom an action removes. -/
structure Target where
  userId : Bytes := []
deriving DecidableEq

instance : Wire.Record Target where
  layout := [⟨Bytes, .bytes 1⟩]
  toRow r := (r.userId, ())
  ofRow | (userId, ()) => ⟨userId⟩

/-- Gives someone a role: a member a new one, a requester the one to join with. -/
structure RoleGrant where
  userId : Bytes := []
  role : Role := .unknown
deriving DecidableEq

instance : Wire.Record RoleGrant where
  layout := [⟨Bytes, .bytes 1⟩, ⟨Role, Role.slot 2⟩]
  toRow r := (r.userId, r.role, ())
  ofRow | (userId, role, ()) => ⟨userId, role⟩

/-- An account with its profile key, by a presentation or by the ciphertexts taken from one. -/
structure Identity where
  presentation : Bytes := []
  userId : Bytes := []
  profileKey : Bytes := []
deriving DecidableEq

instance : Wire.Record Identity where
  layout := [⟨Bytes, .bytes 1⟩, ⟨Bytes, .bytes 2⟩, ⟨Bytes, .bytes 3⟩]
  toRow r := (r.presentation, r.userId, r.profileKey, ())
  ofRow | (presentation, userId, profileKey, ()) => ⟨presentation, userId, profileKey⟩

/-- An account that accepts an invite to its phone number identity. The client sends a presentation,
the server fills in the rest. -/
structure PniIdentity where
  presentation : Bytes := []
  userId : Bytes := []
  pni : Bytes := []
  profileKey : Bytes := []
deriving DecidableEq

instance : Wire.Record PniIdentity where
  layout := [⟨Bytes, .bytes 1⟩, ⟨Bytes, .bytes 2⟩, ⟨Bytes, .bytes 3⟩, ⟨Bytes, .bytes 4⟩]
  toRow r := (r.presentation, r.userId, r.pni, r.profileKey, ())
  ofRow | (presentation, userId, pni, profileKey, ()) => ⟨presentation, userId, pni, profileKey⟩

structure AddInvite where
  added : Option Sealed.Invite := none
deriving DecidableEq

instance : Wire.Record AddInvite where
  layout := [⟨Option Sealed.Invite, .optional 1⟩]
  toRow r := (r.added, ())
  ofRow | (added, ()) => ⟨added⟩

structure AddRequest where
  added : Option Sealed.JoinRequest := none
deriving DecidableEq

instance : Wire.Record AddRequest where
  layout := [⟨Option Sealed.JoinRequest, .optional 1⟩]
  toRow r := (r.added, ())
  ofRow | (added, ()) => ⟨added⟩

structure AddBan where
  added : Option Sealed.Ban := none
deriving DecidableEq

instance : Wire.Record AddBan where
  layout := [⟨Option Sealed.Ban, .optional 1⟩]
  toRow r := (r.added, ())
  ofRow | (added, ()) => ⟨added⟩

structure Title where
  content : Bytes := []
deriving DecidableEq

instance : Wire.Record Title where
  layout := [⟨Bytes, .bytes 1⟩]
  toRow r := (r.content, ())
  ofRow | (content, ()) => ⟨content⟩

structure Avatar where
  location : String := ""
deriving DecidableEq

instance : Wire.Record Avatar where
  layout := [⟨String, .text 1⟩]
  toRow r := (r.location, ())
  ofRow | (location, ()) => ⟨location⟩

structure Timer where
  content : Bytes := []
deriving DecidableEq

instance : Wire.Record Timer where
  layout := [⟨Bytes, .bytes 1⟩]
  toRow r := (r.content, ())
  ofRow | (content, ()) => ⟨content⟩

/-- Who may change attributes from now on. -/
structure AttributesAccess where
  access : Access := .unknown
deriving DecidableEq

instance : Wire.Record AttributesAccess where
  layout := [⟨Access, Access.slot 1⟩]
  toRow r := (r.access, ())
  ofRow | (access, ()) => ⟨access⟩

/-- Who may change the membership from now on. -/
structure MembersAccess where
  access : Access := .unknown
deriving DecidableEq

instance : Wire.Record MembersAccess where
  layout := [⟨Access, Access.slot 1⟩]
  toRow r := (r.access, ())
  ofRow | (access, ()) => ⟨access⟩

/-- Who may join by the invite link from now on. -/
structure InviteLinkAccess where
  access : Access := .unknown
deriving DecidableEq

instance : Wire.Record InviteLinkAccess where
  layout := [⟨Access, Access.slot 1⟩]
  toRow r := (r.access, ())
  ofRow | (access, ()) => ⟨access⟩

structure LinkPassword where
  password : Bytes := []
deriving DecidableEq

instance : Wire.Record LinkPassword where
  layout := [⟨Bytes, .bytes 1⟩]
  toRow r := (r.password, ())
  ofRow | (password, ()) => ⟨password⟩

structure Description where
  content : Bytes := []
deriving DecidableEq

instance : Wire.Record Description where
  layout := [⟨Bytes, .bytes 1⟩]
  toRow r := (r.content, ())
  ofRow | (content, ()) => ⟨content⟩

/-- Whether only administrators may write from now on. -/
structure AnnouncementsOnly where
  announcementsOnly : Bool := false
deriving DecidableEq

instance : Wire.Record AnnouncementsOnly where
  layout := [⟨Bool, .bool 1⟩]
  toRow r := (r.announcementsOnly, ())
  ofRow | (announcementsOnly, ()) => ⟨announcementsOnly⟩

/-- The parts of a change as they are sent to the server. The slots are those of `Change`. -/
structure Actions where
  source : Bytes := []
  revision : UInt32 := 0
  newMembers : List AddMember := []
  removedMembers : List Target := []
  roleChanges : List RoleGrant := []
  profileKeyChanges : List Identity := []
  newInvites : List AddInvite := []
  revokedInvites : List Target := []
  acceptedInvites : List Identity := []
  title : Option Title := none
  avatar : Option Avatar := none
  timer : Option Sealed.Timer := none
  attributesAccess : Option AttributesAccess := none
  membersAccess : Option MembersAccess := none
  inviteLinkAccess : Option InviteLinkAccess := none
  newRequests : List AddRequest := []
  refusedRequests : List Target := []
  approvedRequests : List RoleGrant := []
  linkPassword : Option LinkPassword := none
  description : Option Description := none
  announcementsOnly : Option AnnouncementsOnly := none
  newBans : List AddBan := []
  liftedBans : List Target := []
  acceptedPniInvites : List PniIdentity := []
deriving DecidableEq

instance : Wire.Record Actions where
  layout := [
    ⟨Bytes, .bytes 1⟩, ⟨UInt32, .uint32 2⟩, ⟨List AddMember, .messages 3⟩,
    ⟨List Target, .messages 4⟩, ⟨List RoleGrant, .messages 5⟩, ⟨List Identity, .messages 6⟩,
    ⟨List AddInvite, .messages 7⟩, ⟨List Target, .messages 8⟩, ⟨List Identity, .messages 9⟩,
    ⟨Option Title, .optional 10⟩, ⟨Option Avatar, .optional 11⟩,
    ⟨Option Sealed.Timer, .optional 12⟩, ⟨Option AttributesAccess, .optional 13⟩,
    ⟨Option MembersAccess, .optional 14⟩, ⟨Option InviteLinkAccess, .optional 15⟩,
    ⟨List AddRequest, .messages 16⟩, ⟨List Target, .messages 17⟩, ⟨List RoleGrant, .messages 18⟩,
    ⟨Option LinkPassword, .optional 19⟩, ⟨Option Description, .optional 20⟩,
    ⟨Option AnnouncementsOnly, .optional 21⟩, ⟨List AddBan, .messages 22⟩,
    ⟨List Target, .messages 23⟩, ⟨List PniIdentity, .messages 24⟩]
  toRow r := (
    r.source, r.revision, r.newMembers, r.removedMembers, r.roleChanges, r.profileKeyChanges,
    r.newInvites, r.revokedInvites, r.acceptedInvites, r.title, r.avatar, r.timer,
    r.attributesAccess, r.membersAccess, r.inviteLinkAccess, r.newRequests, r.refusedRequests,
    r.approvedRequests, r.linkPassword, r.description, r.announcementsOnly, r.newBans, r.liftedBans,
    r.acceptedPniInvites, ())
  ofRow
    | (source, revision, newMembers, removedMembers, roleChanges, profileKeyChanges, newInvites,
    revokedInvites, acceptedInvites, title, avatar, timer, attributesAccess, membersAccess,
    inviteLinkAccess, newRequests, refusedRequests, approvedRequests, linkPassword, description,
    announcementsOnly, newBans, liftedBans, acceptedPniInvites, ()) =>
      ⟨source, revision, newMembers, removedMembers, roleChanges, profileKeyChanges, newInvites,
      revokedInvites, acceptedInvites, title, avatar, timer, attributesAccess, membersAccess,
      inviteLinkAccess, newRequests, refusedRequests, approvedRequests, linkPassword, description,
      announcementsOnly, newBans, liftedBans, acceptedPniInvites⟩

end SealedGroups.Sealed
