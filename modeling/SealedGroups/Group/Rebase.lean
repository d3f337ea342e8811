import SealedGroups.Group.Edit
import SealedGroups.Noted

/-!
# Rebasing a change

A change is made for one revision. When the group has moved on in the meantime, the change is
rebased onto the new state: what has happened already, or cannot happen any more, is dropped, and
adding someone who was invited becomes accepting the invite. What is left can be sent again.

Whom an entry is about can only be told from the plaintext change, while it is the actions that are
sent. So the decisions are taken on the plaintext change (`decisions`) and carried out, as edits by
position, on whatever is to be rebased. Decisions on a list are taken from its end towards its
front; positions still to come are then never shifted by earlier edits.
-/

namespace SealedGroups

namespace Snapshot

/-! ### What is known about an identity -/

def hasMember (group : Snapshot) (id : Bytes) : Bool :=
  group.members.any (·.aci == id)

/-- The last member with an account. -/
def lastMember? (group : Snapshot) (id : Bytes) : Option Member :=
  group.members.reverse.find? (·.aci == id)

/-- Whether someone readable is invited. -/
def hasInvitee (group : Snapshot) (id : Bytes) : Bool :=
  !id.isEmpty && group.invites.any (·.invitee == id)

def hasInvite (group : Snapshot) (ciphertext : Bytes) : Bool :=
  group.invites.any (·.ciphertext == ciphertext)

def hasRequest (group : Snapshot) (id : Bytes) : Bool :=
  group.requests.any (·.aci == id)

def hasBan (group : Snapshot) (id : Bytes) : Bool :=
  group.bans.any (·.serviceId == id)

def duration (group : Snapshot) : UInt32 :=
  (group.timer.getD {}).duration

end Snapshot

/-! ### Decisions -/

/-- An edit to make and the note to take of it. -/
structure Decision where
  edit : Edit
  note : Option Note := none
deriving DecidableEq

namespace Decision

def drop (slot : ListSlot) (index : Nat) (message : String) : Decision :=
  ⟨.drop slot index, some { level := .debug, message, index := some index }⟩

def clear (slot : ValueSlot) : Decision :=
  ⟨.clear slot, none⟩

/-- The decisions about the entries of a list, the last entry first. -/
def onEntries {α : Type} (entries : List α) (decide : Nat → α → Option Decision) :
    List Decision :=
  entries.zipIdx.reverse.filterMap fun (entry, index) => decide index entry

/-- Drops the entries that fail a test. -/
def keepOnly {α : Type} (slot : ListSlot) (message : String) (keep : α → Bool)
    (entries : List α) : List Decision :=
  onEntries entries fun index entry =>
    if keep entry then none else some (drop slot index message)

/-- Takes a value out if it says nothing new. -/
def clearIf (slot : ValueSlot) (superfluous : Bool) : List Decision :=
  if superfluous then [clear slot] else []

end Decision

namespace Snapshot

open Decision

def decideNewMember (group : Snapshot) (index : Nat) (member : Member) : Option Decision :=
  if group.hasMember member.aci then
    if group.hasInvitee member.aci then
      some ⟨.drop .newMembers index, some {
        level := .warn
        message := "added member is both member and invited, dropping the add"
        index := some index }⟩
    else some (drop .newMembers index "dropping add of existing member")
  else if group.hasInvitee member.aci then
    some ⟨.acceptAsNewMember index, some {
      level := .debug
      message := "turning add of invited member into promotion"
      index := some index }⟩
  else none

def decideNewRequest (group : Snapshot) (index : Nat) (request : JoinRequest) : Option Decision :=
  if group.hasMember request.aci || group.hasRequest request.aci then
    some (drop .newRequests index "dropping join request of member or requester")
  else if group.hasInvitee request.aci then
    some ⟨.acceptAsRequester index, some {
      level := .debug
      message := "turning join request of invitee into promotion"
      index := some index }⟩
  else none

/-- All decisions about a change, slot by slot. A new link password is always sent again. -/
def decisions (group : Snapshot) (change : Change) : List Decision :=
  onEntries change.newMembers group.decideNewMember
    ++ keepOnly .removedMembers "dropping delete of non-member" group.hasMember
      change.removedMembers
    ++ keepOnly .roleChanges "dropping role change"
      (fun entry => (group.lastMember? entry.aci).any (·.role != entry.role)) change.roleChanges
    ++ keepOnly .profileKeyChanges "dropping profile key change"
      (fun entry => (group.lastMember? entry.aci).any (·.profileKey != entry.profileKey))
      change.profileKeyChanges
    ++ keepOnly .newInvites "dropping invite of member or invitee"
      (fun invite => !(group.hasMember invite.invitee || group.hasInvitee invite.invitee))
      change.newInvites
    ++ keepOnly .revokedInvites "dropping delete of non-invitee"
      (fun entry => group.hasInvite entry.ciphertext || group.hasInvitee entry.invitee)
      change.revokedInvites
    ++ keepOnly .acceptedInvites "dropping promotion of non-invitee"
      (fun member => group.hasInvitee member.aci) change.acceptedInvites
    ++ clearIf .title (change.title.any (·.value == group.title))
    ++ clearIf .avatar (change.avatar.any (·.value == group.avatar))
    ++ clearIf .timer (change.timer.any (·.duration == group.duration))
    ++ clearIf .attributesAccess (change.attributesAccess = (group.access.getD {}).attributes)
    ++ clearIf .membersAccess (change.membersAccess = (group.access.getD {}).members)
    ++ clearIf .inviteLinkAccess (change.inviteLinkAccess = (group.access.getD {}).inviteLink)
    ++ onEntries change.newRequests group.decideNewRequest
    ++ keepOnly .refusedRequests "dropping refusal of non-requester" group.hasRequest
      change.refusedRequests
    ++ keepOnly .approvedRequests "dropping approval of non-requester"
      (fun entry => group.hasRequest entry.aci) change.approvedRequests
    ++ clearIf .description (change.description.any (·.value == group.description))
    ++ clearIf .announcements (change.announcements = group.announcements)
    ++ keepOnly .newBans "dropping ban of banned member"
      (fun ban => !group.hasBan ban.serviceId) change.newBans
    ++ keepOnly .liftedBans "dropping unban of non-banned member"
      (fun ban => group.hasBan ban.serviceId) change.liftedBans
    ++ keepOnly .acceptedPniInvites "dropping invite acceptance of existing member"
      (fun member => !group.hasMember member.aci) change.acceptedPniInvites

def rebaseNotes (group : Snapshot) (change : Change) : List Note :=
  (group.decisions change).filterMap (·.note)

end Snapshot

/-- What is left of a change in a newer state of the group. -/
def Change.rebase (change : Change) (group : Snapshot) : Change :=
  (group.decisions change).foldl (fun result decision => result.edit decision.edit) change

/-- What is left of actions in a newer state of the group, going by the change they decrypt to. -/
def Sealed.Actions.rebase (actions : Sealed.Actions) (group : Snapshot) (change : Change) :
    Sealed.Actions :=
  (group.decisions change).foldl (fun result decision => result.edit decision.edit) actions

def Change.rebaseNoted {ε : Type} (change : Change) (group : Snapshot) : Noted ε Change :=
  ⟨group.rebaseNotes change, .ok (change.rebase group)⟩

def Sealed.Actions.rebaseNoted {ε : Type} (actions : Sealed.Actions) (group : Snapshot)
    (change : Change) : Noted ε Sealed.Actions :=
  ⟨group.rebaseNotes change, .ok (actions.rebase group change)⟩

end SealedGroups
