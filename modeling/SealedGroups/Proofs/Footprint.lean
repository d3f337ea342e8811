import SealedGroups.Proofs.Identity
import SealedGroups.Proofs.Step.Frame

/-!
# What a change leaves alone

A change names members, requests and bans by identities. It names an invite by its ciphertext, or by
whoever comes in through it. Entries of a group that are not named are the same when the change has
been applied, and stand in the same order; attributes that it does not set keep their values
(`accountsFor_of_apply`). No invariant of the group is needed for this: names may be there twice and
invites may be unreadable, as every step leaves alone what it is not about.
-/

namespace SealedGroups

/-! ### What a change names -/

namespace Change

/-- The accounts that a change names as members: whom it adds, removes, changes or lets in. -/
def namedMembers (change : Change) : List Bytes :=
  change.newMembers.map (·.aci) ++ change.removedMembers ++ change.roleChanges.map (·.aci)
    ++ change.profileKeyChanges.map (·.aci) ++ change.acceptedInvites.map (·.aci)
    ++ change.approvedRequests.map (·.aci) ++ change.acceptedPniInvites.map (·.aci)

/-- Whether a change names an invite: makes or revokes one with its ciphertext, or lets in the one
who is invited. -/
def NamesInvite (change : Change) (invite : Invite) : Prop :=
  invite.ciphertext ∈
      change.newInvites.map (·.ciphertext) ++ change.revokedInvites.map (·.ciphertext)
    ∨ invite.invitee ∈ change.newMembers.map (·.aci) ++ change.acceptedInvites.map (·.aci)
      ++ change.acceptedPniInvites.map (·.pni)

instance (change : Change) : DecidablePred change.NamesInvite := fun invite =>
  inferInstanceAs (Decidable (invite.ciphertext ∈ _ ∨ invite.invitee ∈ _))

/-- The accounts whose requests a change names: whom it adds, and whose requests it makes or
answers. -/
def namedRequests (change : Change) : List Bytes :=
  change.newMembers.map (·.aci) ++ change.newRequests.map (·.aci) ++ change.refusedRequests
    ++ change.approvedRequests.map (·.aci)

/-- The identities that a change bans or whose bans it lifts. -/
def namedBans (change : Change) : List Bytes :=
  change.newBans.map (·.serviceId) ++ change.liftedBans.map (·.serviceId)

/-- Whether a change accounts for all that differs between two states of a group. A right or a state
whose number has no name sets nothing, and a group without rights has unknown ones. -/
structure AccountsFor (change : Change) (before after : Snapshot) : Prop where
  members : after.members.filter (·.aci ∉ change.namedMembers) =
    before.members.filter (·.aci ∉ change.namedMembers)
  invites : after.invites.filter (¬ change.NamesInvite ·) =
    before.invites.filter (¬ change.NamesInvite ·)
  requests : after.requests.filter (·.aci ∉ change.namedRequests) =
    before.requests.filter (·.aci ∉ change.namedRequests)
  bans : after.bans.filter (·.serviceId ∉ change.namedBans) =
    before.bans.filter (·.serviceId ∉ change.namedBans)
  title : after.title = (change.title.map (·.value)).getD before.title
  avatar : after.avatar = (change.avatar.map (·.value)).getD before.avatar
  timer : after.timer = change.timer.or before.timer
  attributesAccess : (after.access.getD {}).attributes =
    if change.attributesAccess.declared = .unknown then (before.access.getD {}).attributes
    else change.attributesAccess
  membersAccess : (after.access.getD {}).members =
    if change.membersAccess.declared = .unknown then (before.access.getD {}).members
    else change.membersAccess
  inviteLinkAccess : (after.access.getD {}).inviteLink =
    if change.inviteLinkAccess.declared = .unknown then (before.access.getD {}).inviteLink
    else change.inviteLinkAccess
  linkPassword : after.linkPassword =
    if change.linkPassword = [] then before.linkPassword else change.linkPassword
  description : after.description = (change.description.map (·.value)).getD before.description
  announcements : after.announcements =
    if change.announcements.declared = .unknown then before.announcements else change.announcements
  revision : after.revision = change.revision

/-! ### The steps of a change name nothing else -/

theorem memberIds_steps (change : Change) :
    change.steps.flatMap Step.memberIds = change.namedMembers := by
  simp only [steps, List.flatMap_append, List.flatMap_map, Step.memberIds]
  simp [namedMembers, List.map_eq_flatMap, flatMap_nothing, Step.memberIds]

theorem requestIds_steps (change : Change) :
    change.steps.flatMap Step.requestIds = change.namedRequests := by
  simp only [steps, List.flatMap_append, List.flatMap_map, Step.requestIds]
  simp [namedRequests, List.map_eq_flatMap, flatMap_nothing, Step.requestIds]

theorem bannedIds_steps (change : Change) :
    change.steps.flatMap Step.bannedIds = change.namedBans := by
  simp only [steps, List.flatMap_append, List.flatMap_map, Step.bannedIds]
  simp [namedBans, List.map_eq_flatMap, flatMap_nothing, Step.bannedIds]

theorem namesInvite_of_touches {change : Change} {step : Step} {invite : Invite}
    (mem : step ∈ change.steps) (touches : step.touchesInvite invite) :
    change.NamesInvite invite := by
  -- only additions, invites, revocations and acceptances reach an invite
  cases step with
  | add member =>
    have there : member ∈ change.newMembers := mem_steps.1 mem
    right
    simp only [List.mem_append, List.mem_map]
    exact Or.inl (Or.inl ⟨member, there, touches.symm⟩)
  | invite entry =>
    have there : entry ∈ change.newInvites := mem_steps.1 mem
    exact Or.inl (List.mem_append_left _ (List.mem_map.2 ⟨entry, there, touches.symm⟩))
  | revoke entry =>
    have there : entry ∈ change.revokedInvites := mem_steps.1 mem
    exact Or.inl (List.mem_append_right _ (List.mem_map.2 ⟨entry, there, touches.symm⟩))
  | accept member =>
    have there : member ∈ change.acceptedInvites := mem_steps.1 mem
    right
    simp only [List.mem_append, List.mem_map]
    exact Or.inl (Or.inr ⟨member, there, touches.symm⟩)
  | acceptPni member =>
    have there : member ∈ change.acceptedPniInvites := mem_steps.1 mem
    exact Or.inr (List.mem_append_right _ (List.mem_map.2 ⟨member, there, touches.symm⟩))
  | _ => exact absurd touches id

end Change

/-! ### Rights -/

theorem Access.orKeep_eq (new old : Access) :
    new.orKeep old = if new.declared = .unknown then old else new := by
  simp only [orKeep, isSet, bne_iff_ne, ite_not]

namespace Snapshot

/-- Whether or not a group has rights yet, every right is the one that is set or the one before. -/
theorem getD_accessAfter (group : Snapshot) (change : Change) :
    (group.accessAfter change).getD {} = {
      attributes := change.attributesAccess.orKeep (group.access.getD {}).attributes
      members := change.membersAccess.orKeep (group.access.getD {}).members
      inviteLink := change.inviteLinkAccess.orKeep (group.access.getD {}).inviteLink } := by
  unfold accessAfter
  split
  · rfl
  · -- with none of the rights set, keeping each of them is keeping the rules
    rename_i unset
    simp only [Bool.or_eq_true, not_or, Bool.not_eq_true] at unset
    obtain ⟨⟨attributes, members⟩, inviteLink⟩ := unset
    simp only [Access.orKeep, attributes, members, inviteLink, Bool.false_eq_true, if_false]

/-! ### The whole change -/

/-- A change accounts for all that differs once it has been applied, whatever the group is. -/
theorem accountsFor_of_apply {group result : Snapshot} {change : Change}
    (applied : group.apply change = .ok result) : change.AccountsFor group result := by
  obtain ⟨-, reached⟩ := apply_eq_ok_iff.1 applied
  -- everything but the lists is as the one step that sets attributes leaves it
  have bare := bare_after_steps (group.atRevision change.revision) change
  rw [reached] at bare
  have access := congrArg (fun g : Snapshot => g.access.getD {}) bare
  have rights := access.trans (getD_accessAfter _ change)
  simp only [Access.orKeep_eq] at rights
  constructor
  case members =>
    -- the lists: an entry that no step names is passed by every step
    rw [← reached]
    apply filter_members_after
    intro member unnamed
    rw [Change.memberIds_steps]
    exact of_decide_eq_true unnamed
  case invites =>
    rw [← reached]
    apply filter_invites_after
    intro invite unnamed step hs touches
    exact of_decide_eq_true unnamed (Change.namesInvite_of_touches hs touches)
  case requests =>
    rw [← reached]
    apply filter_requests_after
    intro request unnamed
    rw [Change.requestIds_steps]
    exact of_decide_eq_true unnamed
  case bans =>
    rw [← reached]
    apply filter_bans_after
    intro ban unnamed
    rw [Change.bannedIds_steps]
    exact of_decide_eq_true unnamed
  case title => exact congrArg (·.title) bare
  case avatar => exact congrArg (·.avatar) bare
  case timer => exact (congrArg (·.timer) bare).trans (Option.orElse_eq_or ..)
  case attributesAccess => exact congrArg (·.attributes) rights
  case membersAccess => exact congrArg (·.members) rights
  case inviteLinkAccess => exact congrArg (·.inviteLink) rights
  case linkPassword =>
    refine (congrArg (·.linkPassword) bare).trans ?_
    simp only [setAttributes, List.isEmpty_iff]
    rfl
  case description => exact congrArg (·.description) bare
  case announcements =>
    refine (congrArg (·.announcements) bare).trans ?_
    simp only [setAttributes, Announcements.isSet, bne_iff_ne, ite_not]
    rfl
  case revision => exact congrArg (·.revision) bare

open Sample in
/-- A member, a request and a ban are there twice, and an invite that nobody can read. The change is
about others, and sets a right whose number has no name. -/
theorem accountsFor_of_apply_sample :
    let unreadable : Invite := { invite 6 with invitee := [] }
    let group : Snapshot := {
      members := [administrator 1, member 2, member 3, member 2, member 4]
      invites := [invite 5, unreadable, invite 7]
      requests := [request 8, request 9, request 8]
      bans := [ban 10 0, { timestamp := 3 }, ban 11 0, ban 10 5] }
    let change : Change := {
      revision := 1
      newMembers := [member 12]
      removedMembers := [aci 4]
      roleChanges := [promotion 3]
      acceptedInvites := [member 7]
      membersAccess := ⟨9⟩
      approvedRequests := [approval 9]
      liftedBans := [ban 11 0] }
    ∃ result, group.apply change = .ok result ∧ change.AccountsFor group result
      ∧ result.members.filter (·.aci ∉ change.namedMembers) =
        [administrator 1, member 2, member 2]
      ∧ result.invites.filter (¬ change.NamesInvite ·) = [invite 5, unreadable]
      ∧ (result.access.getD {}).members = .unknown := by
  intro unreadable group change
  -- that the change applies is computed first, which gives its result a name
  have accepted : (group.apply change).toOption.isSome = true := by decide +kernel
  cases applied : group.apply change with
  | error e =>
    rw [applied] at accepted
    cases accepted
  | ok result =>
    have accounts := accountsFor_of_apply applied
    refine ⟨result, rfl, accounts, accounts.members.trans ?_, accounts.invites.trans ?_,
      accounts.membersAccess.trans ?_⟩
    · decide +kernel
    · decide +kernel
    · decide +kernel

end Snapshot

end SealedGroups
