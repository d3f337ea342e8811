import SealedGroups.Proofs.Rebase

/-!
# Changes with nothing left to drop

A change is up to date in a group if every entry of it can still happen there and has not happened
yet, and every attribute it sets gets another value (`Change.UpToDate`). These are the changes that
rebasing leaves as they are (`rebase_eq_self_iff`), and all that it leaves of any change is up to
date (`upToDate_rebase`). So rebasing once is enough (`rebase_rebase`).

The one list that grows is that of the accepted invites. Who is moved there from the adds and the
requests is invited, which is just what the test of that list asks for, and none of those who stay
behind in the two lists is.
-/

namespace SealedGroups

/-- A change of which all is still to be done in a group, and can be. An identity that could not be
read is nobody's, whatever invites there are. -/
structure Change.UpToDate (change : Change) (group : Snapshot) : Prop where
  added : ∀ member ∈ change.newMembers,
    member.aci ∉ group.memberAcis ∧ (member.aci ≠ [] → member.aci ∉ group.invitees)
  removed : ∀ aci ∈ change.removedMembers, aci ∈ group.memberAcis
  roles : ∀ entry ∈ change.roleChanges,
    ∃ member, group.lastMember? entry.aci = some member ∧ member.role ≠ entry.role
  profileKeys : ∀ entry ∈ change.profileKeyChanges,
    ∃ member, group.lastMember? entry.aci = some member ∧ member.profileKey ≠ entry.profileKey
  invited : ∀ invite ∈ change.newInvites,
    invite.invitee ∉ group.memberAcis ∧ (invite.invitee ≠ [] → invite.invitee ∉ group.invitees)
  /-- An invite is known by its ciphertext or by whom it is for. -/
  revoked : ∀ entry ∈ change.revokedInvites,
    entry.ciphertext ∈ group.ciphertexts ∨ (entry.invitee ≠ [] ∧ entry.invitee ∈ group.invitees)
  accepted : ∀ member ∈ change.acceptedInvites, member.aci ≠ [] ∧ member.aci ∈ group.invitees
  title : ∀ text ∈ change.title, text.value ≠ group.title
  avatar : ∀ text ∈ change.avatar, text.value ≠ group.avatar
  timer : ∀ timer ∈ change.timer, timer.duration ≠ group.duration
  attributesAccess : change.attributesAccess = .unknown
    ∨ change.attributesAccess ≠ (group.access.getD {}).attributes
  membersAccess : change.membersAccess = .unknown
    ∨ change.membersAccess ≠ (group.access.getD {}).members
  inviteLinkAccess : change.inviteLinkAccess = .unknown
    ∨ change.inviteLinkAccess ≠ (group.access.getD {}).inviteLink
  requested : ∀ request ∈ change.newRequests, request.aci ∉ group.memberAcis
    ∧ request.aci ∉ group.requesters ∧ (request.aci ≠ [] → request.aci ∉ group.invitees)
  refused : ∀ aci ∈ change.refusedRequests, aci ∈ group.requesters
  approved : ∀ entry ∈ change.approvedRequests, entry.aci ∈ group.requesters
  description : ∀ text ∈ change.description, text.value ≠ group.description
  announcements : change.announcements = .unknown ∨ change.announcements ≠ group.announcements
  banned : ∀ ban ∈ change.newBans, ban.serviceId ∉ group.banned
  lifted : ∀ ban ∈ change.liftedBans, ban.serviceId ∈ group.banned
  /-- Whether the invite is still there is not asked. -/
  acceptedByPni : ∀ member ∈ change.acceptedPniInvites, member.aci ∉ group.memberAcis

/-! ### What the tests of a rebase ask -/

section

variable {group : Snapshot} {id : Bytes}

private theorem not_hasMember_iff : (!group.hasMember id) = true ↔ id ∉ group.memberAcis :=
  not_any_key_iff

private theorem not_hasInvitee_iff :
    (!group.hasInvitee id) = true ↔ (id ≠ [] → id ∉ group.invitees) := by
  rw [Bool.not_eq_true', ← Bool.not_eq_true, Snapshot.hasInvitee_iff, not_and]

theorem stillToAdd_iff {member : Member} :
    group.stillToAdd member = true ↔
      member.aci ∉ group.memberAcis ∧ (member.aci ≠ [] → member.aci ∉ group.invitees) := by
  rw [Snapshot.stillToAdd, Bool.and_eq_true, not_hasMember_iff, not_hasInvitee_iff]

theorem stillToRequest_iff {request : JoinRequest} :
    group.stillToRequest request = true ↔ request.aci ∉ group.memberAcis
      ∧ request.aci ∉ group.requesters ∧ (request.aci ≠ [] → request.aci ∉ group.invitees) := by
  rw [Snapshot.stillToRequest, Bool.not_or, Bool.and_eq_true, Bool.and_eq_true, not_hasMember_iff,
    not_hasInvitee_iff, and_assoc]
  exact and_congr_right' (and_congr_left' not_any_key_iff)

theorem stillToInvite_iff :
    (!(group.hasMember id || group.hasInvitee id)) = true ↔
      id ∉ group.memberAcis ∧ (id ≠ [] → id ∉ group.invitees) := by
  rw [Bool.not_or, Bool.and_eq_true, not_hasMember_iff, not_hasInvitee_iff]

theorem stillToRevoke_iff {entry : Revocation} :
    (group.hasInvite entry.ciphertext || group.hasInvitee entry.invitee) = true ↔
      entry.ciphertext ∈ group.ciphertexts
        ∨ (entry.invitee ≠ [] ∧ entry.invitee ∈ group.invitees) := by
  rw [Bool.or_eq_true, Snapshot.hasInvite_iff, Snapshot.hasInvitee_iff]

/-- A member's role or profile key is still to be changed where it is another one. -/
theorem stillToChange_iff {β : Type} [BEq β] [LawfulBEq β] {value : Member → β} {new : β} :
    (group.lastMember? id).any (value · != new) = true ↔
      ∃ member, group.lastMember? id = some member ∧ value member ≠ new := by
  simp only [Option.any_eq_true, bne_iff_ne]

end

section

variable {β : Type}

/-- A new value is cleared exactly if it passes the test, so it stays as it is if it does not. -/
private theorem cleared_eq_self_iff {new : Option β} {held : β → Bool} :
    (if new.any held then none else new) = new ↔ ∀ value ∈ new, ¬ held value = true := by
  cases new with
  | none => simp
  | some value => simp

private theorem cleared_cleared {new : Option β} {held : β → Bool} :
    ∀ value ∈ (if new.any held then none else new), ¬ held value = true := by
  split
  · exact fun _ none => nomatch none
  · rename_i kept
    exact cleared_eq_self_iff.1 (if_neg kept)

private theorem unset_eq_self_iff [DecidableEq β] {new held unset : β} :
    (if new = held then unset else new) = new ↔ new = unset ∨ new ≠ held := by
  split
  · rename_i same
    simp [same, eq_comm]
  · rename_i other
    simp [other]

private theorem unset_unset [DecidableEq β] {new held unset : β} :
    (if new = held then unset else new) = unset ∨ (if new = held then unset else new) ≠ held := by
  split
  · exact Or.inl rfl
  · rename_i other
    exact Or.inr other

end

namespace Change

variable {change : Change} {group : Snapshot}

/-! ### Rebasing and being up to date -/

/-- Whoever accepts an invite in the end is invited. -/
theorem hasInvitee_of_mem_acceptedInvites {member : Member}
    (h : member ∈ (change.remainder group).acceptedInvites) : group.hasInvitee member.aci := by
  simp only [remainder, List.mem_append, List.mem_reverse, List.mem_map, List.mem_filter] at h
  -- among the acceptances are additions and requests of those who are invited
  rcases h with (⟨-, invited⟩ | ⟨-, instead⟩) | ⟨request, ⟨-, instead⟩, rfl⟩
  · exact invited
  · exact (Bool.and_eq_true_iff.1 instead).2
  · exact (Bool.and_eq_true_iff.1 instead).2

/-- All that is left of a change is up to date. -/
theorem upToDate_remainder (change : Change) (group : Snapshot) :
    (change.remainder group).UpToDate group := by
  constructor
  case added => exact fun member mem => stillToAdd_iff.1 (List.mem_filter.1 mem).2
  case removed => exact fun aci mem => Snapshot.hasMember_iff.1 (List.mem_filter.1 mem).2
  case roles => exact fun entry mem => stillToChange_iff.1 (List.mem_filter.1 mem).2
  case profileKeys => exact fun entry mem => stillToChange_iff.1 (List.mem_filter.1 mem).2
  case invited => exact fun invite mem => stillToInvite_iff.1 (List.mem_filter.1 mem).2
  case revoked => exact fun entry mem => stillToRevoke_iff.1 (List.mem_filter.1 mem).2
  case accepted =>
    exact fun member mem => Snapshot.hasInvitee_iff.1 (hasInvitee_of_mem_acceptedInvites mem)
  case title => exact fun text mem same => cleared_cleared text mem (beq_iff_eq.2 same)
  case avatar => exact fun text mem same => cleared_cleared text mem (beq_iff_eq.2 same)
  case timer => exact fun timer mem same => cleared_cleared timer mem (beq_iff_eq.2 same)
  case attributesAccess => exact unset_unset
  case membersAccess => exact unset_unset
  case inviteLinkAccess => exact unset_unset
  case requested => exact fun request mem => stillToRequest_iff.1 (List.mem_filter.1 mem).2
  case refused => exact fun aci mem => Snapshot.hasRequest_iff.1 (List.mem_filter.1 mem).2
  case approved => exact fun entry mem => Snapshot.hasRequest_iff.1 (List.mem_filter.1 mem).2
  case description => exact fun text mem same => cleared_cleared text mem (beq_iff_eq.2 same)
  case announcements => exact unset_unset
  case banned => exact fun ban mem => not_any_key_iff.1 (List.mem_filter.1 mem).2
  case lifted => exact fun ban mem => Snapshot.hasBan_iff.1 (List.mem_filter.1 mem).2
  case acceptedByPni => exact fun member mem => not_hasMember_iff.1 (List.mem_filter.1 mem).2

theorem upToDate_rebase (change : Change) (group : Snapshot) :
    (change.rebase group).UpToDate group := by
  rw [rebase_eq_remainder]
  exact upToDate_remainder change group

/-- Nobody to be added or asking to be let in has an invite to accept, and the invites that are
accepted are all there. -/
theorem UpToDate.acceptedInvites_eq (current : change.UpToDate group) :
    (change.remainder group).acceptedInvites = change.acceptedInvites := by
  have kept : change.acceptedInvites.filter (fun member => group.hasInvitee member.aci) =
      change.acceptedInvites :=
    List.filter_eq_self.2 fun member mem => Snapshot.hasInvitee_iff.2 (current.accepted member mem)
  -- no addition and no request turns into an acceptance, as nobody in them is invited
  have added : change.newMembers.filter group.acceptsInstead = [] := by
    apply List.filter_eq_nil_iff.2
    intro member mem instead
    have invited := Snapshot.hasInvitee_iff.1 (Bool.and_eq_true_iff.1 instead).2
    exact (current.added member mem).2 invited.1 invited.2
  have asking : change.newRequests.filter group.acceptsInsteadOfAsking = [] := by
    apply List.filter_eq_nil_iff.2
    intro request mem instead
    have invited := Snapshot.hasInvitee_iff.1 (Bool.and_eq_true_iff.1 instead).2
    exact (current.requested request mem).2.2 invited.1 invited.2
  rw [remainder, kept, added, asking]
  simp

/-- A change that is up to date is left as it is. -/
theorem UpToDate.rebase_eq (current : change.UpToDate group) : change.rebase group = change := by
  have accepted := current.acceptedInvites_eq
  rw [rebase_eq_remainder]
  cases change
  -- what is left for each slot is its condition for being up to date
  simp only [remainder, mk.injEq, List.filter_eq_self, cleared_eq_self_iff, unset_eq_self_iff,
    beq_iff_eq, true_and]
  refine ⟨?added, ?removed, ?roles, ?profileKeys, ?invited, ?revoked, accepted, current.title,
    current.avatar, current.timer, current.attributesAccess, current.membersAccess,
    current.inviteLinkAccess, ?requested, ?refused, ?approved, current.description,
    current.announcements, ?banned, ?lifted, ?acceptedByPni⟩
  case added => exact fun member mem => stillToAdd_iff.2 (current.added member mem)
  case removed => exact fun aci mem => Snapshot.hasMember_iff.2 (current.removed aci mem)
  case roles => exact fun entry mem => stillToChange_iff.2 (current.roles entry mem)
  case profileKeys => exact fun entry mem => stillToChange_iff.2 (current.profileKeys entry mem)
  case invited => exact fun invite mem => stillToInvite_iff.2 (current.invited invite mem)
  case revoked => exact fun entry mem => stillToRevoke_iff.2 (current.revoked entry mem)
  case requested => exact fun request mem => stillToRequest_iff.2 (current.requested request mem)
  case refused => exact fun aci mem => Snapshot.hasRequest_iff.2 (current.refused aci mem)
  case approved => exact fun entry mem => Snapshot.hasRequest_iff.2 (current.approved entry mem)
  case banned => exact fun ban mem => not_any_key_iff.2 (current.banned ban mem)
  case lifted => exact fun ban mem => Snapshot.hasBan_iff.2 (current.lifted ban mem)
  case acceptedByPni =>
    exact fun member mem => not_hasMember_iff.2 (current.acceptedByPni member mem)

/-- Rebasing leaves the changes as they are that are up to date, and no others. -/
theorem rebase_eq_self_iff : change.rebase group = change ↔ change.UpToDate group := by
  constructor
  · intro same
    rw [← same]
    exact upToDate_rebase change group
  · exact UpToDate.rebase_eq

/-- Rebasing a second time onto the same state drops nothing and moves nobody. -/
theorem rebase_rebase (change : Change) (group : Snapshot) :
    (change.rebase group).rebase group = change.rebase group :=
  rebase_eq_self_iff.2 (upToDate_rebase change group)

end Change

end SealedGroups
