import SealedGroups.Proofs.Step.Frame
import SealedGroups.Proofs.Step.Slot
import SealedGroups.Proofs.UpToDate
import SealedGroups.Samples
import Mathlib.Data.List.Perm.Subperm

/-!
# What rebasing leaves can be applied

Rebasing decides on every entry by looking at the group as it is at first, but an entry is performed
after those of the slots before it. What remains of a change can be applied all the same
(`apply_rebase`), to whatever group, if the change does not get in its own way: nobody is removed
and promoted at once, nobody comes in twice, and no invite is both revoked and needed.

Each slot asks for members that are still there, for invitees who are not members yet or for invites
that are still open. These facts hold of the group at first, by the tests of the rebase, and the
steps in between leave them (`mem_memberAcis_after`, `not_mem_memberAcis_effect`,
`mem_invitees_after`).
-/

namespace SealedGroups

namespace Change

/-- Everyone who is to come in, by an invite, by being added or by asking. -/
def incoming (change : Change) : List Bytes :=
  change.acceptedInvites.map (·.aci) ++ change.newMembers.map (·.aci)
    ++ change.newRequests.map (·.aci)

/-- A change whose entries do not get in the way of each other on this group. -/
structure Rebasable (change : Change) (group : Snapshot) : Prop where
  incoming_nodup : change.incoming.Nodup
  removed_nodup : change.removedMembers.Nodup
  pnis_nodup : (change.acceptedPniInvites.map (·.pni)).Nodup
  removed_not_promoted : ∀ entry ∈ change.roleChanges, entry.aci ∉ change.removedMembers
  removed_not_rekeyed : ∀ entry ∈ change.profileKeyChanges, entry.aci ∉ change.removedMembers
  roles_held : ∀ entry ∈ change.roleChanges, entry.role.isHeld
  /-- An approval may leave the role open. -/
  granted_held : ∀ entry ∈ change.approvedRequests, entry.role = .unknown ∨ entry.role.isHeld
  invitee_not_incoming : ∀ invite ∈ change.newInvites, invite.invitee ≠ [] →
    invite.invitee ∉ change.incoming
  /-- An invite that is revoked is not accepted, however that may come about. -/
  revoked_not_accepted : ∀ entry ∈ change.revokedInvites, ∀ invite ∈ group.invites,
    invite.ciphertext = entry.ciphertext →
      invite.invitee ∉ change.incoming ∧ invite.invitee ∉ change.acceptedPniInvites.map (·.pni)
  pni_invited : ∀ member ∈ change.acceptedPniInvites, member.pni ∈ group.invitees
  pni_not_incoming : ∀ member ∈ change.acceptedPniInvites, member.pni ∉ change.incoming

/-! ### Who accepts an invite in the end -/

variable {change : Change} {group : Snapshot}

private theorem map_memberOfRequest (requests : List JoinRequest) :
    (requests.map change.memberOfRequest).map (·.aci) = requests.map (·.aci) :=
  List.map_map

/-- Whether by acceptance, add or request: whoever accepts an invite in the end was to come in. -/
theorem remainder_acceptedInvites_subperm (change : Change) (group : Snapshot) :
    ((change.remainder group).acceptedInvites.map (·.aci)).Subperm change.incoming := by
  -- what is accepted comes from the acceptances, the additions and the requests of the change
  have kept : ((change.acceptedInvites.filter fun member => group.hasInvitee member.aci).map
      (·.aci)).Subperm (change.acceptedInvites.map (·.aci)) :=
    (List.filter_sublist.map _).subperm
  have added : ((change.newMembers.filter group.acceptsInstead).reverse.map (·.aci)).Subperm
      (change.newMembers.map (·.aci)) :=
    ((List.reverse_perm _).map _).subperm.trans (List.filter_sublist.map _).subperm
  have asking : (((change.newRequests.filter group.acceptsInsteadOfAsking).map
      change.memberOfRequest).reverse.map (·.aci)).Subperm (change.newRequests.map (·.aci)) := by
    refine ((List.reverse_perm _).map _).subperm.trans ?_
    rw [map_memberOfRequest]
    exact (List.filter_sublist.map _).subperm
  simp only [remainder, List.map_append, incoming]
  exact (kept.append added).append asking

theorem mem_incoming_of_mem_acceptedInvites {member : Member}
    (h : member ∈ (change.remainder group).acceptedInvites) : member.aci ∈ change.incoming :=
  (remainder_acceptedInvites_subperm change group).subset (List.mem_map_of_mem h)

theorem mem_incoming_of_mem_newMembers {member : Member} (h : member ∈ change.newMembers) :
    member.aci ∈ change.incoming :=
  List.mem_append_left _ (List.mem_append_right _ (List.mem_map_of_mem h))

end Change

namespace Snapshot

theorem mem_memberAcis_of_lastMember {group : Snapshot} {id : Bytes} {member : Member}
    (last : group.lastMember? id = some member) : id ∈ group.memberAcis := by
  obtain ⟨there, rfl⟩ := lastMember_mem last
  exact List.mem_map_of_mem there

/-- What is left of a change that does not get in its own way finds all it asks for. -/
theorem admits_remainder {group : Snapshot} {change : Change} (sound : change.Rebasable group) :
    group.admits (change.remainder group).steps := by
  set left := change.remainder group
  -- the tests of the rebase, as facts about what is left
  have current : left.UpToDate group := Change.upToDate_remainder change group
  have removed : ∀ aci ∈ left.removedMembers,
      aci ∈ change.removedMembers ∧ aci ∈ group.memberAcis := by
    intro aci mem
    exact ⟨List.mem_of_mem_filter mem, current.removed aci mem⟩
  have promoted : ∀ entry ∈ left.roleChanges,
      entry ∈ change.roleChanges ∧ entry.aci ∈ group.memberAcis := by
    intro entry mem
    obtain ⟨member, last, -⟩ := current.roles entry mem
    exact ⟨List.mem_of_mem_filter mem, mem_memberAcis_of_lastMember last⟩
  have rekeyed : ∀ entry ∈ left.profileKeyChanges,
      entry ∈ change.profileKeyChanges ∧ entry.aci ∈ group.memberAcis := by
    intro entry mem
    obtain ⟨member, last, -⟩ := current.profileKeys entry mem
    exact ⟨List.mem_of_mem_filter mem, mem_memberAcis_of_lastMember last⟩
  have added : ∀ member ∈ left.newMembers, member ∈ change.newMembers :=
    fun member mem => List.mem_of_mem_filter mem
  simp only [Change.steps, admits_append, and_assoc]
  refine ⟨?adds, ?removes, ?roles, ?keys, ?invites, ?revokes, ?accepts, ⟨trivial, trivial⟩,
    ?requests, ?refusals, ?approvals, ?bans, ?liftedBans, ?pniAccepts⟩
  case adds => exact admits_of_always fun _ _ => trivial
  case removes =>
    apply admits_removes (sound.removed_nodup.sublist List.filter_sublist)
    intro aci mem
    exact mem_memberAcis_after (removed aci mem).2 (by simp)
  case roles =>
    apply admits_changeRoles
    intro entry mem
    obtain ⟨mem, member⟩ := promoted entry mem
    refine ⟨sound.roles_held entry mem, mem_memberAcis_after member ?_⟩
    -- removals come first, but none is of someone who is promoted too
    intro taken
    exact sound.removed_not_promoted entry mem (removed _ (by simpa using taken)).1
  case keys =>
    apply admits_changeProfileKeys
    intro entry mem
    obtain ⟨mem, member⟩ := rekeyed entry mem
    apply mem_memberAcis_after member
    intro taken
    exact sound.removed_not_rekeyed entry mem (removed _ (by simpa using taken)).1
  case invites =>
    apply admits_invites
    intro entry mem named
    have stranger : entry.invitee ∉ group.memberAcis := (current.invited entry mem).1
    have mem : entry ∈ change.newInvites := List.mem_of_mem_filter mem
    -- members and those who come in are not invited, so no step so far is about an invitee
    apply after_keeps (P := fun g => entry.invitee ∉ g.memberAcis) _ stranger
    intro step hs g stillStranger
    refine not_mem_memberAcis_effect ?_ stillStranger
    intro about
    simp only [List.mem_append, List.mem_map] at hs
    rcases hs with ((⟨m, hm, rfl⟩ | ⟨aci, hm, rfl⟩) | ⟨e, hm, rfl⟩) | ⟨m, hm, rfl⟩ <;>
      have same := List.mem_singleton.1 about
    · exact sound.invitee_not_incoming entry mem named
        (same ▸ Change.mem_incoming_of_mem_newMembers (added m hm))
    · exact stranger (same ▸ (removed aci hm).2)
    · exact stranger (same ▸ (promoted e hm).2)
    · exact stranger (same ▸ (rekeyed m hm).2)
  case revokes => exact admits_of_always fun _ _ => trivial
  case accepts =>
    obtain ⟨acis, same, among⟩ :=
      Change.remainder_acceptedInvites_subperm change group
    apply admits_accepts (same.nodup_iff.1 (sound.incoming_nodup.sublist among))
    intro member mem
    obtain ⟨named, invited⟩ := current.accepted member mem
    have incoming := Change.mem_incoming_of_mem_acceptedInvites mem
    refine mem_invitees_after invited ?_ ?_ (by simp) (by simp)
    · -- an addition takes an invite along, but nobody who is invited is left to be added
      intro new hnew same
      have uninvited := (current.added new (by simpa using hnew)).2
      rw [same] at uninvited
      exact uninvited named invited
    · -- no invite of someone who comes in is revoked either
      intro entry revoked invite there ciphertext same
      have revoked : entry ∈ left.revokedInvites := by simpa using revoked
      have apart := sound.revoked_not_accepted entry (List.mem_of_mem_filter revoked) invite there
        ciphertext
      exact apart.1 (same ▸ incoming)
  case requests => exact admits_of_always fun _ _ => trivial
  case refusals => exact admits_of_always fun _ _ => trivial
  case approvals =>
    apply admits_approvals
    intro entry mem
    unfold Approval.granted
    split
    · rfl
    · rename_i open_
      exact (sound.granted_held entry (List.mem_of_mem_filter mem)).resolve_left open_
  case bans => exact admits_of_always fun _ _ => trivial
  case liftedBans => exact admits_of_always fun _ _ => trivial
  case pniAccepts =>
    apply admits_pniAccepts (sound.pnis_nodup.sublist (List.filter_sublist.map _))
    intro member mem
    have mem := List.mem_of_mem_filter mem
    have notIncoming := sound.pni_not_incoming member mem
    -- nor does anything before it take the invite of a phone number identity
    refine mem_invitees_after (sound.pni_invited member mem) ?_ ?_ ?_ (by simp)
    · intro new hnew same
      have new := added new (by simpa using hnew)
      exact notIncoming (same ▸ Change.mem_incoming_of_mem_newMembers new)
    · intro entry revoked invite there ciphertext same
      have revoked : entry ∈ left.revokedInvites := by simpa using revoked
      have apart := sound.revoked_not_accepted entry (List.mem_of_mem_filter revoked) invite there
        ciphertext
      exact apart.2 (same ▸ List.mem_map_of_mem mem)
    · intro new accepted same
      have accepted : new ∈ left.acceptedInvites := by simpa using accepted
      exact notIncoming (same ▸ Change.mem_incoming_of_mem_acceptedInvites accepted)

-- what is asked of the steps is known by now, and their list need not be looked at again
attribute [local irreducible] Change.steps

/-- What rebasing leaves of a change can be applied, whatever group it is rebased onto. -/
theorem apply_rebase {group : Snapshot} {change : Change} (sound : change.Rebasable group) :
    ∃ result, group.apply (change.rebase group) = .ok result := by
  -- the revision is set first, and no part of what is asked for depends on it
  have sound : change.Rebasable (group.atRevision change.revision) := { sound with }
  have admits := admits_remainder sound
  rw [Change.remainder_atRevision] at admits
  rw [Change.rebase_eq_remainder]
  exact ⟨_, apply_eq_ok_iff.2 ⟨admits, rfl⟩⟩

open Sample in
/-- An old change to a group that knows some of it already and whose second member is there twice.
-/
theorem apply_rebase_sample :
    let group : Snapshot := {
      members := [administrator 1, member 2, member 2, member 3]
      invites := [invite 4, invite 5, invite 6, invite 7, pniInvite 8]
      requests := [request 9, request 10] }
    let change : Change := {
      revision := 1
      newMembers := [member 3, member 4, member 11]
      removedMembers := [aci 2, aci 12]
      roleChanges := [promotion 3, promotion 19]
      profileKeyChanges := [memberWithProfileKey 3 [1]]
      newInvites := [invite 13, invite 9]
      revokedInvites := [revocation 7, revocation 14]
      acceptedInvites := [member 5, member 15]
      newRequests := [request 6, request 16]
      refusedRequests := [aci 9]
      approvedRequests := [{ approval 10 with role := .unknown }, approval 17]
      acceptedPniInvites := [memberByPni 18 8] }
    ∃ result, group.apply (change.rebase group) = .ok result := by
  intro group change
  have sound : change.Rebasable group := by
    constructor <;> decide +kernel
  exact apply_rebase sound

end Snapshot

end SealedGroups
