import SealedGroups.Group.Change
import SealedGroups.Sealed.Actions

/-!
# Changes that change little

A change may be empty, or touch only what nobody needs to be told about: profile keys and bans. A
right or an announcement state whose number has no name counts as not set. In actions every part
that is present counts, whatever it holds.
-/

namespace SealedGroups

namespace Change

/-- Whether the change leaves everything but profile keys and bans as it is. -/
def keepsMembershipAndAttributes (change : Change) : Bool :=
  change.newMembers.isEmpty
    && change.removedMembers.isEmpty
    && change.roleChanges.isEmpty
    && change.newInvites.isEmpty
    && change.revokedInvites.isEmpty
    && change.acceptedInvites.isEmpty
    && change.title.isNone
    && change.avatar.isNone
    && change.timer.isNone
    && !change.attributesAccess.isSet
    && !change.membersAccess.isSet
    && !change.inviteLinkAccess.isSet
    && change.newRequests.isEmpty
    && change.refusedRequests.isEmpty
    && change.approvedRequests.isEmpty
    && change.linkPassword.isEmpty
    && change.description.isNone
    && !change.announcements.isSet
    && change.acceptedPniInvites.isEmpty

/-- Whether nothing but profile keys changes. -/
def isEmptyExceptProfileKeys (change : Change) : Bool :=
  change.newBans.isEmpty && change.liftedBans.isEmpty && change.keepsMembershipAndAttributes

/-- Whether nothing changes. The editor and the revision do not count. -/
def isEmpty (change : Change) : Bool :=
  change.profileKeyChanges.isEmpty && change.isEmptyExceptProfileKeys

/-- Whether bans change, perhaps along with profile keys, and nothing else. -/
def isEmptyExceptBans (change : Change) : Bool :=
  (!change.newBans.isEmpty || !change.liftedBans.isEmpty) && change.keepsMembershipAndAttributes

/-- Whether nobody needs to be told. -/
def isSilent (change : Change) : Bool :=
  change.isEmptyExceptProfileKeys || change.isEmptyExceptBans

end Change

/-- Whether the actions do nothing. The source and the revision do not count. -/
def Sealed.Actions.isEmpty (actions : Sealed.Actions) : Bool :=
  actions.newMembers.isEmpty
    && actions.removedMembers.isEmpty
    && actions.roleChanges.isEmpty
    && actions.profileKeyChanges.isEmpty
    && actions.newInvites.isEmpty
    && actions.revokedInvites.isEmpty
    && actions.acceptedInvites.isEmpty
    && actions.title.isNone
    && actions.avatar.isNone
    && actions.timer.isNone
    && actions.attributesAccess.isNone
    && actions.membersAccess.isNone
    && actions.inviteLinkAccess.isNone
    && actions.newRequests.isEmpty
    && actions.refusedRequests.isEmpty
    && actions.approvedRequests.isEmpty
    && actions.linkPassword.isNone
    && actions.description.isNone
    && actions.announcementsOnly.isNone
    && actions.newBans.isEmpty
    && actions.liftedBans.isEmpty
    && actions.acceptedPniInvites.isEmpty

end SealedGroups
