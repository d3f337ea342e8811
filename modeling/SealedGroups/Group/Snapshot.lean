import SealedGroups.Group.Codes

/-!
# The state of a group

What the members of a group know at one revision, in plaintext. Identities are kept as the bytes of
their binary form; where an identity could not be decrypted the bytes are empty, and for invites the
ciphertext next to them still tells entries apart.
-/

namespace SealedGroups

structure Member where
  aci : Bytes := []
  role : Role := .unknown
  profileKey : Bytes := []
  /-- The revision at which the member joined. -/
  joinedAt : UInt32 := 0
  /-- The phone number identity whose invite the member accepted, if it was one. -/
  pni : Bytes := []
deriving DecidableEq

instance : Wire.Record Member where
  layout := [
    ⟨Bytes, .bytes 1⟩, ⟨Role, Role.slot 2⟩, ⟨Bytes, .bytes 3⟩, ⟨UInt32, .uint32 4⟩,
    ⟨Bytes, .bytes 5⟩]
  toRow r := (r.aci, r.role, r.profileKey, r.joinedAt, r.pni, ())
  ofRow | (aci, role, profileKey, joinedAt, pni, ()) => ⟨aci, role, profileKey, joinedAt, pni⟩

/-- Someone who was invited and has not answered yet. -/
structure Invite where
  invitee : Bytes := []
  role : Role := .unknown
  inviter : Bytes := []
  timestamp : UInt64 := 0
  /-- The invitee as the server stores them. -/
  ciphertext : Bytes := []
deriving DecidableEq

instance : Wire.Record Invite where
  layout := [
    ⟨Bytes, .bytes 1⟩, ⟨Role, Role.slot 2⟩, ⟨Bytes, .bytes 3⟩, ⟨UInt64, .uint64 4⟩,
    ⟨Bytes, .bytes 5⟩]
  toRow r := (r.invitee, r.role, r.inviter, r.timestamp, r.ciphertext, ())
  ofRow
    | (invitee, role, inviter, timestamp, ciphertext, ()) =>
      ⟨invitee, role, inviter, timestamp, ciphertext⟩

structure JoinRequest where
  aci : Bytes := []
  profileKey : Bytes := []
  timestamp : UInt64 := 0
deriving DecidableEq

instance : Wire.Record JoinRequest where
  layout := [⟨Bytes, .bytes 1⟩, ⟨Bytes, .bytes 2⟩, ⟨UInt64, .uint64 3⟩]
  toRow r := (r.aci, r.profileKey, r.timestamp, ())
  ofRow | (aci, profileKey, timestamp, ()) => ⟨aci, profileKey, timestamp⟩

structure Ban where
  serviceId : Bytes := []
  timestamp : UInt64 := 0
deriving DecidableEq

instance : Wire.Record Ban where
  layout := [⟨Bytes, .bytes 1⟩, ⟨UInt64, .uint64 2⟩]
  toRow r := (r.serviceId, r.timestamp, ())
  ofRow | (serviceId, timestamp, ()) => ⟨serviceId, timestamp⟩

/-- Who may do what. -/
structure AccessRules where
  attributes : Access := .unknown
  members : Access := .unknown
  inviteLink : Access := .unknown
deriving DecidableEq

instance : Wire.Record AccessRules where
  layout := [⟨Access, Access.slot 1⟩, ⟨Access, Access.slot 2⟩, ⟨Access, Access.slot 3⟩]
  toRow r := (r.attributes, r.members, r.inviteLink, ())
  ofRow | (attributes, members, inviteLink, ()) => ⟨attributes, members, inviteLink⟩

/-- How long messages stay, in seconds. -/
structure Timer where
  duration : UInt32 := 0
deriving DecidableEq

instance : Wire.Record Timer where
  layout := [⟨UInt32, .uint32 1⟩]
  toRow r := (r.duration, ())
  ofRow | (duration, ()) => ⟨duration⟩

/-- The whole state of a group at one revision. -/
structure Snapshot where
  title : String := ""
  /-- Where the picture is stored. -/
  avatar : String := ""
  timer : Option Timer := none
  access : Option AccessRules := none
  revision : UInt32 := 0
  members : List Member := []
  invites : List Invite := []
  requests : List JoinRequest := []
  linkPassword : Bytes := []
  description : String := ""
  announcements : Announcements := .unknown
  bans : List Ban := []
deriving DecidableEq

instance : Wire.Record Snapshot where
  layout := [
    ⟨String, .text 1⟩, ⟨String, .text 2⟩, ⟨Option Timer, .optional 3⟩,
    ⟨Option AccessRules, .optional 4⟩, ⟨UInt32, .uint32 5⟩, ⟨List Member, .messages 6⟩,
    ⟨List Invite, .messages 7⟩, ⟨List JoinRequest, .messages 8⟩, ⟨Bytes, .bytes 9⟩,
    ⟨String, .text 10⟩, ⟨Announcements, Announcements.slot 11⟩, ⟨List Ban, .messages 12⟩]
  toRow r := (
    r.title, r.avatar, r.timer, r.access, r.revision, r.members, r.invites, r.requests,
    r.linkPassword, r.description, r.announcements, r.bans, ())
  ofRow
    | (title, avatar, timer, access, revision, members, invites, requests, linkPassword,
    description, announcements, bans, ()) =>
      ⟨title, avatar, timer, access, revision, members, invites, requests, linkPassword,
      description, announcements, bans⟩

/-- What an invite link reveals to someone outside the group. -/
structure JoinInfo where
  title : String := ""
  avatar : String := ""
  memberCount : UInt32 := 0
  inviteLink : Access := .unknown
  revision : UInt32 := 0
  needsApproval : Bool := false
  description : String := ""
deriving DecidableEq

instance : Wire.Record JoinInfo where
  layout := [
    ⟨String, .text 1⟩, ⟨String, .text 2⟩, ⟨UInt32, .uint32 3⟩, ⟨Access, Access.slot 4⟩,
    ⟨UInt32, .uint32 5⟩, ⟨Bool, .bool 6⟩, ⟨String, .text 7⟩]
  toRow r := (
    r.title, r.avatar, r.memberCount, r.inviteLink, r.revision, r.needsApproval, r.description, ())
  ofRow
    | (title, avatar, memberCount, inviteLink, revision, needsApproval, description, ()) =>
      ⟨title, avatar, memberCount, inviteLink, revision, needsApproval, description⟩

end SealedGroups
