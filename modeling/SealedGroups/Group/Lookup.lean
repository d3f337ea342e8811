import SealedGroups.Group.Change
import SealedGroups.Noted
import SealedGroups.ServiceId

/-!
# Identities in plaintext records

Identities are read from lists one by one, so that an entry that holds none stays in its place and
hides no other. An entry is looked up by the bytes of the identity sought; as an identity has one
binary form, equal bytes mean the same person.
-/

namespace SealedGroups

/-! ### Who is named -/

namespace Change

/-- Who made the change. -/
def editorId (change : Change) : Except ServiceId.Error ServiceId :=
  ServiceId.ofBinary change.editor

def removedMemberIds (change : Change) : List (Except ServiceId.Error ServiceId) :=
  change.removedMembers.map ServiceId.ofBinary

def revokedInviteIds (change : Change) : List (Except ServiceId.Error ServiceId) :=
  change.revokedInvites.map (ServiceId.ofBinary ·.invitee)

def refusedRequestIds (change : Change) : List (Except ServiceId.Error ServiceId) :=
  change.refusedRequests.map ServiceId.ofBinary

end Change

namespace Snapshot

def memberIds (group : Snapshot) : List (Except ServiceId.Error ServiceId) :=
  group.members.map (ServiceId.ofBinary ·.aci)

def inviteIds (group : Snapshot) : List (Except ServiceId.Error ServiceId) :=
  group.invites.map (ServiceId.ofBinary ·.invitee)

def requestIds (group : Snapshot) : List (Except ServiceId.Error ServiceId) :=
  group.requests.map (ServiceId.ofBinary ·.aci)

/-- Everyone who is banned, once each. Entries that hold no identity are noted and left out. -/
def bannedIds {ε : Type} (group : Snapshot) : Noted ε (List ServiceId) :=
  group.bans.foldlM (fun ids ban =>
    match ServiceId.ofBinary ban.serviceId with
    | .ok id => pure (if id ∈ ids then ids else ids ++ [id])
    | .error e => do
      .warn s!"ignoring banned member with invalid identifier: {e.message}"
      return ids) []

/-! ### Looking someone up -/

def member? (group : Snapshot) (aci : Uuid) : Option Member :=
  group.members.find? (·.aci == aci.toList)

def invite? (group : Snapshot) (id : ServiceId) : Option Invite :=
  group.invites.find? (·.invitee == id.toBinary)

def inviteByCiphertext? (group : Snapshot) (ciphertext : Bytes) : Option Invite :=
  group.invites.find? (·.ciphertext == ciphertext)

def request? (group : Snapshot) (aci : Uuid) : Option JoinRequest :=
  group.requests.find? (·.aci == aci.toList)

def isRequesting (group : Snapshot) (aci : Uuid) : Bool :=
  (group.request? aci).isSome

def isInvitedOrRequesting (group : Snapshot) (id : ServiceId) : Bool :=
  (group.invite? id).isSome || id.aci?.any group.isRequesting

end Snapshot

end SealedGroups
