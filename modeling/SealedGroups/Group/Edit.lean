import SealedGroups.Group.Change
import SealedGroups.Sealed.Actions

/-!
# Editing a change

An edit takes something out of a change: one entry of a list, by its position, or a new value of an
attribute. Two edits move an entry instead: whoever was to be added, or asks to be let in, but holds
an invite accepts the invite. The same edit is made on a plaintext change and on the actions it came
from, so both stay in step. An edit at a position that does not exist changes nothing.
-/

namespace SealedGroups

/-- The lists of a change. -/
inductive ListSlot where
  | newMembers
  | removedMembers
  | roleChanges
  | profileKeyChanges
  | newInvites
  | revokedInvites
  | acceptedInvites
  | newRequests
  | refusedRequests
  | approvedRequests
  | newBans
  | liftedBans
  | acceptedPniInvites
deriving DecidableEq

/-- The single values of a change that may turn out to be superfluous. -/
inductive ValueSlot where
  | title
  | avatar
  | timer
  | attributesAccess
  | membersAccess
  | inviteLinkAccess
  | description
  | announcements
deriving DecidableEq

inductive Edit where
  | drop (slot : ListSlot) (index : Nat)
  | clear (slot : ValueSlot)
  /-- Whoever was to be added accepts an invite instead. -/
  | acceptAsNewMember (index : Nat)
  /-- Whoever asks to be let in accepts an invite instead. -/
  | acceptAsRequester (index : Nat)
deriving DecidableEq

namespace Change

def dropEntry (change : Change) (index : Nat) : ListSlot → Change
  | .newMembers => { change with newMembers := change.newMembers.eraseIdx index }
  | .removedMembers => { change with removedMembers := change.removedMembers.eraseIdx index }
  | .roleChanges => { change with roleChanges := change.roleChanges.eraseIdx index }
  | .profileKeyChanges =>
    { change with profileKeyChanges := change.profileKeyChanges.eraseIdx index }
  | .newInvites => { change with newInvites := change.newInvites.eraseIdx index }
  | .revokedInvites => { change with revokedInvites := change.revokedInvites.eraseIdx index }
  | .acceptedInvites => { change with acceptedInvites := change.acceptedInvites.eraseIdx index }
  | .newRequests => { change with newRequests := change.newRequests.eraseIdx index }
  | .refusedRequests => { change with refusedRequests := change.refusedRequests.eraseIdx index }
  | .approvedRequests => { change with approvedRequests := change.approvedRequests.eraseIdx index }
  | .newBans => { change with newBans := change.newBans.eraseIdx index }
  | .liftedBans => { change with liftedBans := change.liftedBans.eraseIdx index }
  | .acceptedPniInvites =>
    { change with acceptedPniInvites := change.acceptedPniInvites.eraseIdx index }

def clearValue (change : Change) : ValueSlot → Change
  | .title => { change with title := none }
  | .avatar => { change with avatar := none }
  | .timer => { change with timer := none }
  | .attributesAccess => { change with attributesAccess := .unknown }
  | .membersAccess => { change with membersAccess := .unknown }
  | .inviteLinkAccess => { change with inviteLinkAccess := .unknown }
  | .description => { change with description := none }
  | .announcements => { change with announcements := .unknown }

/-- The member that a requester becomes on accepting an invite. -/
def memberOfRequest (change : Change) (request : JoinRequest) : Member where
  aci := request.aci
  role := .normal
  profileKey := request.profileKey
  joinedAt := change.revision

def edit (change : Change) : Edit → Change
  | .drop slot index => change.dropEntry index slot
  | .clear slot => change.clearValue slot
  | .acceptAsNewMember index =>
    { change with
      newMembers := change.newMembers.eraseIdx index
      acceptedInvites := change.acceptedInvites ++ change.newMembers[index]?.toList }
  | .acceptAsRequester index =>
    { change with
      newRequests := change.newRequests.eraseIdx index
      acceptedInvites :=
        change.acceptedInvites ++ (change.newRequests[index]?.map change.memberOfRequest).toList }

end Change

namespace Sealed.Actions

def dropEntry (actions : Actions) (index : Nat) : ListSlot → Actions
  | .newMembers => { actions with newMembers := actions.newMembers.eraseIdx index }
  | .removedMembers => { actions with removedMembers := actions.removedMembers.eraseIdx index }
  | .roleChanges => { actions with roleChanges := actions.roleChanges.eraseIdx index }
  | .profileKeyChanges =>
    { actions with profileKeyChanges := actions.profileKeyChanges.eraseIdx index }
  | .newInvites => { actions with newInvites := actions.newInvites.eraseIdx index }
  | .revokedInvites => { actions with revokedInvites := actions.revokedInvites.eraseIdx index }
  | .acceptedInvites => { actions with acceptedInvites := actions.acceptedInvites.eraseIdx index }
  | .newRequests => { actions with newRequests := actions.newRequests.eraseIdx index }
  | .refusedRequests => { actions with refusedRequests := actions.refusedRequests.eraseIdx index }
  | .approvedRequests =>
    { actions with approvedRequests := actions.approvedRequests.eraseIdx index }
  | .newBans => { actions with newBans := actions.newBans.eraseIdx index }
  | .liftedBans => { actions with liftedBans := actions.liftedBans.eraseIdx index }
  | .acceptedPniInvites =>
    { actions with acceptedPniInvites := actions.acceptedPniInvites.eraseIdx index }

def clearValue (actions : Actions) : ValueSlot → Actions
  | .title => { actions with title := none }
  | .avatar => { actions with avatar := none }
  | .timer => { actions with timer := none }
  | .attributesAccess => { actions with attributesAccess := none }
  | .membersAccess => { actions with membersAccess := none }
  | .inviteLinkAccess => { actions with inviteLinkAccess := none }
  | .description => { actions with description := none }
  | .announcements => { actions with announcementsOnly := none }

/-- The acceptance that a presentation made for something else gives. -/
def acceptance (presentation : Bytes) : Identity :=
  { presentation }

def edit (actions : Actions) : Edit → Actions
  | .drop slot index => actions.dropEntry index slot
  | .clear slot => actions.clearValue slot
  | .acceptAsNewMember index =>
    { actions with
      newMembers := actions.newMembers.eraseIdx index
      acceptedInvites := actions.acceptedInvites ++
        (actions.newMembers[index]?.map fun entry =>
          acceptance (entry.added.getD {}).presentation).toList }
  | .acceptAsRequester index =>
    { actions with
      newRequests := actions.newRequests.eraseIdx index
      acceptedInvites := actions.acceptedInvites ++
        (actions.newRequests[index]?.map fun entry =>
          acceptance (entry.added.getD {}).presentation).toList }

end Sealed.Actions

end SealedGroups
