import SealedGroups.Group.Snapshot

/-!
# A group on the server

The counterparts of snapshots that the server stores: identities and profile keys are ciphertexts,
title, description and timer are encrypted blobs. Only lists, counts, rights and the place of the
picture are readable. `Attribute` is what is inside a blob.
-/

namespace SealedGroups

namespace Sealed

/-- A member, by ciphertexts or by a presentation that holds them. -/
structure Member where
  userId : Bytes := []
  role : Role := .unknown
  profileKey : Bytes := []
  presentation : Bytes := []
  joinedAt : UInt32 := 0
deriving DecidableEq

instance : Wire.Record Member where
  layout := [
    ⟨Bytes, .bytes 1⟩, ⟨Role, Role.slot 2⟩, ⟨Bytes, .bytes 3⟩, ⟨Bytes, .bytes 4⟩,
    ⟨UInt32, .uint32 5⟩]
  toRow r := (r.userId, r.role, r.profileKey, r.presentation, r.joinedAt, ())
  ofRow
    | (userId, role, profileKey, presentation, joinedAt, ()) =>
      ⟨userId, role, profileKey, presentation, joinedAt⟩

structure Invite where
  member : Option Sealed.Member := none
  inviter : Bytes := []
  timestamp : UInt64 := 0
deriving DecidableEq

instance : Wire.Record Invite where
  layout := [⟨Option Sealed.Member, .optional 1⟩, ⟨Bytes, .bytes 2⟩, ⟨UInt64, .uint64 3⟩]
  toRow r := (r.member, r.inviter, r.timestamp, ())
  ofRow | (member, inviter, timestamp, ()) => ⟨member, inviter, timestamp⟩

structure JoinRequest where
  userId : Bytes := []
  profileKey : Bytes := []
  presentation : Bytes := []
  timestamp : UInt64 := 0
deriving DecidableEq

instance : Wire.Record JoinRequest where
  layout := [⟨Bytes, .bytes 1⟩, ⟨Bytes, .bytes 2⟩, ⟨Bytes, .bytes 3⟩, ⟨UInt64, .uint64 4⟩]
  toRow r := (r.userId, r.profileKey, r.presentation, r.timestamp, ())
  ofRow
    | (userId, profileKey, presentation, timestamp, ()) =>
      ⟨userId, profileKey, presentation, timestamp⟩

structure Ban where
  userId : Bytes := []
  timestamp : UInt64 := 0
deriving DecidableEq

instance : Wire.Record Ban where
  layout := [⟨Bytes, .bytes 1⟩, ⟨UInt64, .uint64 2⟩]
  toRow r := (r.userId, r.timestamp, ())
  ofRow | (userId, timestamp, ()) => ⟨userId, timestamp⟩

/-- The whole state of a group as the server stores it. -/
structure Group where
  publicKey : Bytes := []
  title : Bytes := []
  avatar : String := ""
  timer : Bytes := []
  access : Option AccessRules := none
  revision : UInt32 := 0
  members : List Sealed.Member := []
  invites : List Sealed.Invite := []
  requests : List Sealed.JoinRequest := []
  linkPassword : Bytes := []
  description : Bytes := []
  announcementsOnly : Bool := false
  bans : List Sealed.Ban := []
deriving DecidableEq

instance : Wire.Record Group where
  layout := [
    ⟨Bytes, .bytes 1⟩, ⟨Bytes, .bytes 2⟩, ⟨String, .text 3⟩, ⟨Bytes, .bytes 4⟩,
    ⟨Option AccessRules, .optional 5⟩, ⟨UInt32, .uint32 6⟩, ⟨List Sealed.Member, .messages 7⟩,
    ⟨List Sealed.Invite, .messages 8⟩, ⟨List Sealed.JoinRequest, .messages 9⟩, ⟨Bytes, .bytes 10⟩,
    ⟨Bytes, .bytes 11⟩, ⟨Bool, .bool 12⟩, ⟨List Sealed.Ban, .messages 13⟩]
  toRow r := (
    r.publicKey, r.title, r.avatar, r.timer, r.access, r.revision, r.members, r.invites, r.requests,
    r.linkPassword, r.description, r.announcementsOnly, r.bans, ())
  ofRow
    | (publicKey, title, avatar, timer, access, revision, members, invites, requests, linkPassword,
    description, announcementsOnly, bans, ()) =>
      ⟨publicKey, title, avatar, timer, access, revision, members, invites, requests, linkPassword,
      description, announcementsOnly, bans⟩

/-- The bytes of accepted actions, signed by the server. -/
structure SignedChange where
  actions : Bytes := []
  signature : Bytes := []
  /-- The version of the record layout that the actions need. -/
  epoch : UInt32 := 0
deriving DecidableEq

instance : Wire.Record SignedChange where
  layout := [⟨Bytes, .bytes 1⟩, ⟨Bytes, .bytes 2⟩, ⟨UInt32, .uint32 3⟩]
  toRow r := (r.actions, r.signature, r.epoch, ())
  ofRow | (actions, signature, epoch, ()) => ⟨actions, signature, epoch⟩

/-- What an invite link reveals, as the server stores it. -/
structure JoinInfo where
  publicKey : Bytes := []
  title : Bytes := []
  avatar : String := ""
  memberCount : UInt32 := 0
  inviteLink : Access := .unknown
  revision : UInt32 := 0
  needsApproval : Bool := false
  description : Bytes := []
deriving DecidableEq

instance : Wire.Record JoinInfo where
  layout := [
    ⟨Bytes, .bytes 1⟩, ⟨Bytes, .bytes 2⟩, ⟨String, .text 3⟩, ⟨UInt32, .uint32 4⟩,
    ⟨Access, Access.slot 5⟩, ⟨UInt32, .uint32 6⟩, ⟨Bool, .bool 7⟩, ⟨Bytes, .bytes 8⟩]
  toRow r := (
    r.publicKey, r.title, r.avatar, r.memberCount, r.inviteLink, r.revision, r.needsApproval,
    r.description, ())
  ofRow
    | (publicKey, title, avatar, memberCount, inviteLink, revision, needsApproval, description,
    ()) =>
      ⟨publicKey, title, avatar, memberCount, inviteLink, revision, needsApproval, description⟩

end Sealed

/-! ### Attributes -/

/-- The content of an encrypted blob. -/
inductive Attribute where
  | title (text : String)
  | avatar (picture : Bytes)
  | timer (duration : UInt32)
  | description (text : String)
deriving DecidableEq

namespace Attribute

/-- An attribute is carried under a tag of its own, even if it is empty; a later one replaces an
earlier one. -/
def slot : Wire.Slot (Option Attribute) where
  tags := [1, 2, 3, 4]
  initial := none
  write
    | none => []
    | some (.title text) => [⟨1, .bytes (utf8 text)⟩]
    | some (.avatar picture) => [⟨2, .bytes picture⟩]
    | some (.timer duration) => [⟨3, .varint duration.toUInt64⟩]
    | some (.description text) => [⟨4, .bytes (utf8 text)⟩]
  merge _ field _ :=
    match field.tag, field.payload with
    | 1, .bytes content => (ofUtf8? content).map (some <| .title ·)
    | 2, .bytes content => some (some (.avatar content))
    | 3, .varint value => some (some (.timer value.toUInt32))
    | 4, .bytes content => (ofUtf8? content).map (some <| .description ·)
    | _, _ => none

end Attribute

/-- The plaintext of a blob. -/
structure AttributeBlob where
  content : Option Attribute := none
deriving DecidableEq

instance : Wire.Record AttributeBlob where
  layout := [⟨Option Attribute, Attribute.slot⟩]
  toRow r := (r.content, ())
  ofRow | (content, ()) => { content }

end SealedGroups
