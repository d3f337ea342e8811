import SealedGroups.Proofs.Identity
import SealedGroups.Proofs.Step.Frame
import SealedGroups.Proofs.Step.Slot
import SealedGroups.Proofs.UpToDate

/-!
# Accepting invites

An invite is accepted in two ways. Who was invited as an account is found among the invites by that
account. Who was invited by a phone number identity joins with an account that nothing in the group
connects with the invite, which is found by the phone number identity that comes along.

The second way is held to less. Rebasing keeps the acceptances of accounts whose invites are still
there, but of the others it asks only whether the account is a member by now, and an acceptance of
an invite that is gone stays (`invited_of_rebase`); the whole change can then not be applied
(`not_apply_of_uninvited`). And applying it takes out the invite alone, and leaves what else the
account has in the group: whoever accepts gets one standing more than they had
(`oneStanding_iff_of_pniAcceptances`).
-/

namespace SealedGroups

/-! ### Acceptances after a rebase -/

namespace Change

/-- Of the acceptances by accounts that rebasing leaves, all have an invite. Of those by phone
number identities all have one exactly if in the change those had that are not by members. -/
theorem invited_of_rebase (change : Change) (group : Snapshot) :
    (∀ member ∈ (change.rebase group).acceptedInvites,
        member.aci ≠ [] ∧ member.aci ∈ group.invitees)
      ∧ ((∀ member ∈ (change.rebase group).acceptedPniInvites, member.pni ∈ group.invitees) ↔
        ∀ member ∈ change.acceptedPniInvites,
          member.aci ∉ group.memberAcis → member.pni ∈ group.invitees) := by
  refine ⟨(upToDate_rebase change group).accepted, ?_⟩
  have left_iff : ∀ member, member ∈ (change.rebase group).acceptedPniInvites ↔
      member ∈ change.acceptedPniInvites ∧ member.aci ∉ group.memberAcis := by
    intro member
    -- the one test on these entries is about the account, not about the phone number identity
    rw [rebase_eq_remainder]
    exact List.mem_filter.trans (and_congr_right' not_any_key_iff)
  constructor
  · intro invited member mem stranger
    exact invited member ((left_iff member).2 ⟨mem, stranger⟩)
  · intro invited member left
    obtain ⟨mem, stranger⟩ := (left_iff member).1 left
    exact invited member mem stranger

end Change

namespace Snapshot

/-- An acceptance by a phone number identity stands against the whole change, if the identity is
neither invited nor comes to be so by the change itself. -/
theorem not_apply_of_uninvited {group result : Snapshot} {change : Change} {member : Member}
    (mem : member ∈ change.acceptedPniInvites) (uninvited : member.pni ∉ group.invitees)
    (notNew : ∀ invite ∈ change.newInvites, invite.invitee ≠ member.pni) :
    group.apply change ≠ .ok result := by
  intro applied
  obtain ⟨admits, -⟩ := apply_eq_ok_iff.1 applied
  have step : .acceptPni member ∈ change.steps := Change.mem_steps.2 mem
  obtain ⟨before, later, split⟩ := List.append_of_mem step
  rw [split] at admits
  -- the invite that the step finds was there at first, or made by a step before
  obtain ⟨invite, there, same⟩ := List.mem_map.1 (admits_append.1 admits).2.1
  rcases mem_invites_after there with old | made
  · exact uninvited (same ▸ List.mem_map_of_mem old)
  · have made : .invite invite ∈ change.steps := split ▸ List.mem_append_left _ made
    exact notNew invite (Change.mem_steps.1 made) same

open Sample in
/-- The invite of a phone number identity was revoked, while the account behind it has accepted. The
acceptance stays when it is rebased, and fails. -/
theorem rebase_keeps_acceptance_of_revoked_invite :
    let group : Snapshot := { members := [administrator 1] }
    let change : Change := { revision := 1, acceptedPniInvites := [memberByPni 10 12] }
    ¬ ((∀ member ∈ (change.rebase group).acceptedInvites, member.aci ∈ group.invitees)
        ∧ ∀ member ∈ (change.rebase group).acceptedPniInvites, member.pni ∈ group.invitees)
      ∧ ∀ result, group.apply (change.rebase group) ≠ .ok result := by
  intro group change
  have left : memberByPni 10 12 ∈ (change.rebase group).acceptedPniInvites := by decide +kernel
  have uninvited : (memberByPni 10 12).pni ∉ group.invitees := by decide +kernel
  constructor
  · rintro ⟨-, invited⟩
    exact uninvited (invited _ left)
  · intro result
    exact not_apply_of_uninvited left uninvited (by decide +kernel)

end Snapshot

/-! ### Standings after an acceptance -/

/-- A change in which accounts accept invites to their phone number identities, and nothing else. -/
def Change.ofPniAcceptances (editor : Bytes) (revision : UInt32) (members : List Member) :
    Change where
  editor
  revision
  acceptedPniInvites := members

theorem Change.steps_ofPniAcceptances (editor : Bytes) (revision : UInt32) (members : List Member) :
    (ofPniAcceptances editor revision members).steps =
      [.setAttributes (ofPniAcceptances editor revision members)] ++ members.map .acceptPni := by
  simp [steps, ofPniAcceptances]

namespace Snapshot

/-- Such a change takes out the invites, each found by the phone number identity, and appends the
members. -/
theorem eq_of_apply_ofPniAcceptances {group result : Snapshot} {editor : Bytes} {revision : UInt32}
    {members : List Member}
    (applied : group.apply (.ofPniAcceptances editor revision members) = .ok result) :
    result = { group with
      revision
      members := group.members ++ members
      invites := (members.map (·.pni)).foldl
        (fun invites id => invites.eraseP (·.invitee == id)) group.invites } := by
  -- the change sets no attributes, so that only its acceptances count
  have unset : (group.atRevision revision).after
      [.setAttributes (.ofPniAcceptances editor revision members)] = group.atRevision revision := by
    cases group
    rfl
  rw [← (apply_eq_ok_iff.1 applied).2, Change.steps_ofPniAcceptances, after_append]
  change ((group.atRevision revision).after _).after _ = _
  rw [unset, after_pniAccepts]
  rfl

/-- Acceptances by different phone number identities can be applied exactly if all of these are
invited. -/
theorem exists_apply_ofPniAcceptances_iff {group : Snapshot} (editor : Bytes) (revision : UInt32)
    {members : List Member} (distinct : (members.map (·.pni)).Nodup) :
    (∃ result, group.apply (.ofPniAcceptances editor revision members) = .ok result) ↔
      ∀ member ∈ members, member.pni ∈ group.invitees := by
  constructor
  · rintro ⟨result, applied⟩ member mem
    -- one acceptance without an invite fails the whole change
    by_contra uninvited
    have notNew : ∀ invite ∈ (Change.ofPniAcceptances editor revision members).newInvites,
        invite.invitee ≠ member.pni := by
      intro invite new
      cases new
    exact not_apply_of_uninvited mem uninvited notNew applied
  · intro invited
    refine ⟨_, apply_eq_ok_iff.2 ⟨?_, rfl⟩⟩
    rw [Change.steps_ofPniAcceptances, admits_append]
    exact ⟨⟨trivial, trivial⟩, admits_pniAccepts distinct invited⟩

/-- Taking out the invites of others does not take out the invite of an identity. -/
private theorem mem_invitees_foldl_iff {invites : List Invite} {others : List Bytes} {id : Bytes}
    (other : id ∉ others) :
    id ∈ (others.foldl (fun invites id => invites.eraseP (·.invitee == id)) invites).map
        (·.invitee) ↔ id ∈ invites.map (·.invitee) := by
  induction others generalizing invites with
  | nil => rfl
  | cons first rest ih =>
    rw [List.mem_cons, not_or] at other
    rw [List.foldl_cons, ih other.2, map_eraseP_key]
    exact List.mem_erase_of_ne other.1

/-- Invites to different phone number identities can be accepted by different accounts exactly if
all of them are there. Whoever has accepted is a member once then and nothing else, exactly if the
account was nothing in the group before: neither a member, nor invited as an account, nor asking to
be let in. -/
theorem oneStanding_iff_of_pniAcceptances (group : Snapshot) (editor : Bytes) (revision : UInt32)
    {members : List Member} (acis : (members.map (·.aci)).Nodup)
    (pnis : (members.map (·.pni)).Nodup)
    (sizes : ∀ member ∈ members, member.aci.length = 16 ∧ member.pni.length = 17) :
    ((∃ result, group.apply (.ofPniAcceptances editor revision members) = .ok result) ↔
        ∀ member ∈ members, member.pni ∈ group.invitees)
      ∧ ∀ result, group.apply (.ofPniAcceptances editor revision members) = .ok result →
        ∀ member ∈ members,
          (result.memberAcis.count member.aci = 1 ∧ member.aci ∉ result.invitees
              ∧ member.aci ∉ result.requesters ↔
            member.aci ∉ group.identities) := by
  refine ⟨exists_apply_ofPniAcceptances_iff editor revision pnis, ?_⟩
  intro result applied member mem
  have named : member.aci ≠ [] := by
    intro unnamed
    have size := (sizes member mem).1
    rw [unnamed] at size
    cases size
  -- an account and a phone number identity are never the same bytes
  have noPni : member.aci ∉ members.map (·.pni) := by
    intro isPni
    obtain ⟨other, hother, same⟩ := List.mem_map.1 isPni
    have size := congrArg List.length same
    rw [(sizes other hother).2, (sizes member mem).1] at size
    cases size
  have joined : result.memberAcis.count member.aci = group.memberAcis.count member.aci + 1 := by
    have acis_eq : result.memberAcis = group.memberAcis ++ members.map (·.aci) := by
      rw [eq_of_apply_ofPniAcceptances applied]
      exact List.map_append
    rw [acis_eq, List.count_append, List.count_eq_one_of_mem acis (List.mem_map_of_mem mem)]
  have invited : member.aci ∈ result.invitees ↔ member.aci ∈ group.invitees := by
    rw [eq_of_apply_ofPniAcceptances applied]
    exact mem_invitees_foldl_iff noPni
  have requests : result.requesters = group.requesters := by
    rw [eq_of_apply_ofPniAcceptances applied]
    rfl
  rw [joined, invited, requests, mem_identities, Nat.add_eq_right, List.count_eq_zero]
  simp only [named, ne_eq, not_false_eq_true, and_true, not_or]

open Sample in
/-- Two accept their invites: one who was nothing in the group, and one who also asked to be let in
and still does so as a member. -/
theorem oneStanding_iff_of_pniAcceptances_sample :
    let group : Snapshot := {
      members := [administrator 1]
      invites := [invite 4, pniInvite 12, pniInvite 13]
      requests := [request 2, request 5] }
    let members := [memberByPni 3 13, memberByPni 2 12]
    (members.map (·.aci)).Nodup ∧ (members.map (·.pni)).Nodup
      ∧ (∀ member ∈ members, member.aci.length = 16 ∧ member.pni.length = 17)
      ∧ ∃ result, group.apply (.ofPniAcceptances (aci 2) 1 members) = .ok result
        ∧ (result.memberAcis.count (aci 3) = 1 ∧ aci 3 ∉ result.invitees
          ∧ aci 3 ∉ result.requesters)
        ∧ ¬ (result.memberAcis.count (aci 2) = 1 ∧ aci 2 ∉ result.invitees
          ∧ aci 2 ∉ result.requesters) := by
  intro group members
  have acis : (members.map (·.aci)).Nodup := by decide +kernel
  have pnis : (members.map (·.pni)).Nodup := by decide +kernel
  have sizes : ∀ member ∈ members, member.aci.length = 16 ∧ member.pni.length = 17 := by
    decide +kernel
  obtain ⟨applies, standings⟩ := oneStanding_iff_of_pniAcceptances group (aci 2) 1 acis pnis sizes
  obtain ⟨result, applied⟩ := applies.2 (by decide +kernel)
  refine ⟨acis, pnis, sizes, result, applied, ?_, ?_⟩
  · exact (standings result applied (memberByPni 3 13) (by decide +kernel)).2 (by decide +kernel)
  · intro once
    have asking : aci 2 ∈ group.identities := by decide +kernel
    exact (standings result applied (memberByPni 2 12) (by decide +kernel)).1 once asking

open Sample in
/-- Someone asks to be let in with their account, while an invite to their phone number identity is
on its way. Accepting it makes them a member who still asks to be let in. -/
theorem accepting_requester_keeps_request :
    let group : Snapshot := {
      members := [administrator 1], invites := [pniInvite 12], requests := [request 2] }
    let members := [memberByPni 2 12]
    group.identities.Nodup ∧ (members.map (·.aci)).Nodup ∧ (members.map (·.pni)).Nodup
      ∧ (∀ member ∈ members, member.aci.length = 16 ∧ member.pni.length = 17)
      ∧ ∃ result, group.apply (.ofPniAcceptances (aci 2) 1 members) = .ok result
        ∧ ¬ ∀ member ∈ members, result.memberAcis.count member.aci = 1
          ∧ member.aci ∉ result.invitees ∧ member.aci ∉ result.requesters := by
  refine ⟨by decide +kernel, by decide +kernel, by decide +kernel, by decide +kernel,
    { revision := 1, members := [administrator 1, memberByPni 2 12], requests := [request 2] }, ?_⟩
  decide +kernel

end Snapshot

end SealedGroups
