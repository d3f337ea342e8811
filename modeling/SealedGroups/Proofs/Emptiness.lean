import SealedGroups.Group.Emptiness
import SealedGroups.Proofs.Banning
import SealedGroups.Proofs.Identity
import SealedGroups.Proofs.Step.Frame
import SealedGroups.Proofs.Step.Slot
import SealedGroups.Samples
import Mathlib.Data.Fintype.EquivFin

/-!
# Emptiness is exact

A change counts as empty if nothing in it is set. That is so exactly if the change moves every group
to its revision and does nothing else to it (`emptiness_exact`). Entries may well cancel each other
on most groups, as an account that is added and removed again does; what has to be found is a group
where they do not. An invite, a member or a request that stands there already, and that nothing in
the change brings back, tells them apart.

A change that nobody needs to be told of leaves all of the group but profile keys and bans.
-/

namespace SealedGroups

/-- What has not been used can always be found. -/
private theorem exists_unused (used : List Bytes) : ∃ unused, unused ∉ used := by
  obtain ⟨unused, new⟩ := Infinite.exists_notMem_finset used.toFinset
  exact ⟨unused, fun mem => new (List.mem_toFinset.2 mem)⟩

namespace Step

/-! ### Steps without effect -/

/-- Steps that lead every group at a revision back to itself. -/
def InVain (revision : UInt32) (steps : List Step) : Prop :=
  ∀ group : Snapshot, group.revision = revision → group.admits steps ∧ group.after steps = group

namespace InVain

variable {revision : UInt32} {steps before later : List Step} {step : Step}

/-- An entry that needs someone in the group does not come first. -/
theorem eq_nil_of_not_ready {α : Type} {kind : α → Step} {entries : List α}
    (vain : InVain revision (entries.map kind ++ later))
    (needy : ∀ entry, ¬ (kind entry).ready { revision }) : entries = [] := by
  cases entries with
  | nil => rfl
  | cons entry rest => exact absurd (vain { revision } rfl).1.1 (needy entry)

/-! #### Invites -/

/-- An invite that is there already, and that nothing brings back, is not taken out. -/
theorem not_mem_of_takes {invite : Invite} (vain : InVain revision steps)
    (unknown : .invite invite ∉ steps)
    (takes : ∀ group, group.ciphertexts.Nodup → invite ∉ (step.effect group).invites) :
    step ∉ steps := by
  intro mem
  obtain ⟨before, later, rfl⟩ := List.append_of_mem mem
  -- a group that holds nothing but the invite would have to keep it
  have back := (vain { revision, invites := [invite] } rfl).2
  rw [Snapshot.after_append, Snapshot.after_cons] at back
  have there := congrArg (invite ∈ Snapshot.invites ·) back
  have distinct : (Snapshot.after { revision, invites := [invite] } before).ciphertexts.Nodup := by
    apply Snapshot.after_keeps (P := fun group => group.ciphertexts.Nodup)
    · intro step _ group nodup
      exact Snapshot.ciphertexts_effect_nodup nodup step
    · exact List.nodup_singleton _
  rcases Snapshot.mem_invites_after (there.mpr List.mem_cons_self) with stays | made
  · exact takes _ distinct stays
  · exact unknown (List.mem_append_right _ (List.mem_cons_of_mem _ made))

/-- For every invitee and every ciphertext there is an invite that nothing makes. -/
theorem exists_unknown_invite (steps : List Step) (invitee ciphertext : Bytes) :
    ∃ invite : Invite, invite.invitee = invitee ∧ invite.ciphertext = ciphertext
      ∧ .invite invite ∉ steps := by
  obtain ⟨inviter, new⟩ := exists_unused (steps.filterMap fun
    | .invite entry => some entry.inviter
    | _ => none)
  refine ⟨{ invitee, inviter, ciphertext }, rfl, rfl, ?_⟩
  intro mem
  exact new (List.mem_filterMap.2 ⟨_, mem, rfl⟩)

theorem no_add (vain : InVain revision steps) (member : Member) : .add member ∉ steps := by
  obtain ⟨invite, invited, -, unknown⟩ := exists_unknown_invite steps member.aci []
  apply vain.not_mem_of_takes unknown
  intro group _ stays
  have other := (List.mem_filter.1 stays).2
  simp [invited] at other

theorem no_revoke (vain : InVain revision steps) (entry : Revocation) :
    .revoke entry ∉ steps := by
  obtain ⟨invite, -, sealed, unknown⟩ := exists_unknown_invite steps [] entry.ciphertext
  apply vain.not_mem_of_takes unknown
  intro group distinct stays
  have known := List.mem_map_of_mem (f := (·.ciphertext)) stays
  have keys : ((Step.revoke entry).effect group).ciphertexts =
      group.ciphertexts.erase entry.ciphertext := map_eraseP_key _ _ _
  change invite.ciphertext ∈ ((Step.revoke entry).effect group).ciphertexts at known
  rw [keys, sealed] at known
  exact distinct.not_mem_erase known

/-- Where nothing takes invites out, none is made. -/
theorem no_invite (vain : InVain revision steps) (entry : Invite)
    (notAccepted : ∀ member, .accept member ∉ steps)
    (notPniAccepted : ∀ member, .acceptPni member ∉ steps) : .invite entry ∉ steps := by
  intro mem
  have notAdded := vain.no_add
  have notRevoked := vain.no_revoke
  obtain ⟨before, later, rfl⟩ := List.append_of_mem mem
  have back := (vain { revision } rfl).2
  rw [Snapshot.after_append, Snapshot.after_cons] at back
  -- the ciphertext is there after the step, whether or not it was there before
  have made : entry.ciphertext ∈
      ((Step.invite entry).effect (Snapshot.after { revision } before)).ciphertexts := by
    simp only [Snapshot.ciphertexts, Step.effect, Step.onInvites]
    split
    · exact any_key_iff.1 ‹_›
    · simp
  have stays : entry.ciphertext ∈ (Snapshot.after
      ((Step.invite entry).effect (Snapshot.after { revision } before)) later).ciphertexts := by
    -- with nobody added, accepted or revoked an invite that is there stays there
    apply Snapshot.after_keeps (P := fun group => entry.ciphertext ∈ group.ciphertexts) _ made
    intro step there group known
    have there : step ∈ before ++ .invite entry :: later :=
      List.mem_append_right _ (List.mem_cons_of_mem _ there)
    cases step with
    | add member => exact absurd there (notAdded member)
    | revoke entry => exact absurd there (notRevoked entry)
    | accept member => exact absurd there (notAccepted member)
    | acceptPni member => exact absurd there (notPniAccepted member)
    | invite other =>
      simp only [Snapshot.ciphertexts, Step.effect, Step.onInvites]
      split
      · exact known
      · rw [List.map_append]
        exact List.mem_append_left _ known
    | _ => exact known
  rw [back] at stays
  cases stays

/-! #### Members -/

/-- Where nobody is removed, nobody comes in. -/
theorem not_mem_memberAcis (vain : InVain revision (before ++ step :: later))
    (stay : ∀ id, .remove id ∉ later) (group : Snapshot) (current : group.revision = revision)
    (deserted : group.memberAcis = []) (id : Bytes) :
    id ∉ (step.effect (group.after before)).memberAcis := by
  intro enters
  have back := (vain group current).2
  rw [Snapshot.after_append, Snapshot.after_cons] at back
  have stays := Snapshot.mem_memberAcis_after enters (stay id)
  rw [back, deserted] at stays
  cases stays

/-- A step that brings someone in, whatever the group is, shows where nobody is. -/
theorem not_mem_of_brings (vain : InVain revision steps) (stay : ∀ id, .remove id ∉ steps)
    {id : Bytes} (brings : ∀ group, id ∈ (step.effect group).memberAcis) : step ∉ steps := by
  intro mem
  obtain ⟨before, later, rfl⟩ := List.append_of_mem mem
  have stay : ∀ id, .remove id ∉ later := fun id mem =>
    stay id (List.mem_append_right _ (List.mem_cons_of_mem _ mem))
  exact vain.not_mem_memberAcis stay { revision } rfl rfl id (brings _)

theorem no_accept (vain : InVain revision steps) (stay : ∀ id, .remove id ∉ steps)
    (member : Member) : .accept member ∉ steps := by
  apply vain.not_mem_of_brings stay
  intro group
  rw [Snapshot.memberAcis_effect]
  exact List.mem_append_right _ List.mem_cons_self

theorem no_acceptPni (vain : InVain revision steps) (stay : ∀ id, .remove id ∉ steps)
    (member : Member) : .acceptPni member ∉ steps := by
  apply vain.not_mem_of_brings stay
  intro group
  rw [Snapshot.memberAcis_effect]
  exact List.mem_append_right _ List.mem_cons_self

/-! #### Join requests -/

section

variable {change : Change} {requests : List JoinRequest}

private theorem requests_after (group : Snapshot) :
    (group.after (.setAttributes change :: requests.map .request)).requests =
      group.requests ++ requests := by
  rw [Snapshot.after_cons, Snapshot.after_requests]
  rfl

/-- Only a request brings a request. -/
private theorem mem_requests_after {group : Snapshot} {steps : List Step} {request : JoinRequest}
    (mem : request ∈ (group.after steps).requests) :
    request ∈ group.requests ∨ .request request ∈ steps := by
  by_contra none
  obtain ⟨absent, unasked⟩ := not_or.1 none
  -- the invariant is that the request is not there
  apply Snapshot.after_keeps (P := fun group => request ∉ group.requests) _ absent mem
  intro step there group absent present
  cases step with
  | add member => exact absent (List.mem_of_mem_filter present)
  | request entry =>
    rcases List.mem_append.1 present with old | new
    · exact absent old
    · rw [List.mem_singleton.1 new] at unasked
      exact unasked there
  | refuse aci => exact absent (List.mem_of_mem_eraseP present)
  | approve revision entry => exact absent (List.mem_of_mem_eraseP present)
  | _ => exact absent present

/-- A request that is there already, and is not made again, is not refused. -/
theorem refusals_eq_nil {refusals : List Bytes}
    (vain : InVain revision (.setAttributes change :: requests.map .request
      ++ (refusals.map .refuse ++ later)))
    (unasked : ∀ request, .request request ∉ later) : refusals = [] := by
  cases refusals with
  | nil => rfl
  | cons aci rest =>
    -- the account asks before with a profile key that none of the later requests has
    obtain ⟨profileKey, new⟩ := exists_unused (requests.map (·.profileKey))
    have back := (vain { revision, requests := [{ aci, profileKey }] } rfl).2
    rw [Snapshot.after_append, List.map_cons, List.cons_append, Snapshot.after_cons] at back
    have there := congrArg ({ aci, profileKey } ∈ Snapshot.requests ·) back
    rcases mem_requests_after (there.mpr List.mem_cons_self) with stays | asked
    · -- the first request of the account is the one that stood there before
      simp only [Step.effect, Step.onRequests, requests_after, List.cons_append,
        List.nil_append, List.eraseP_cons_of_pos, beq_self_eq_true] at stays
      exact absurd (List.mem_map_of_mem (f := (·.profileKey)) stays) new
    · rcases List.mem_append.1 asked with refused | asked
      · obtain ⟨_, -, kind⟩ := List.mem_map.1 refused
        cases kind
      · exact absurd asked (unasked _)

/-- Whoever asks to be let in is not let in. -/
theorem approvals_eq_nil {approvals : List Approval}
    (vain : InVain revision (.setAttributes change :: requests.map .request
      ++ approvals.map (.approve revision))) : approvals = [] := by
  cases approvals with
  | nil => rfl
  | cons approval rest =>
    have stay : ∀ id, .remove id ∉ rest.map (Step.approve revision) := by
      intro id removed
      obtain ⟨_, -, kind⟩ := List.mem_map.1 removed
      cases kind
    -- a group where the account asks already shows whether it is approved
    let asked : Snapshot := { revision, requests := [{ aci := approval.aci }] }
    have enters := vain.not_mem_memberAcis stay asked rfl rfl approval.aci
    have asks : approval.aci ∈
        (asked.after (.setAttributes change :: requests.map .request)).requesters := by
      rw [Snapshot.requesters, requests_after]
      exact List.mem_cons_self
    rw [Snapshot.memberAcis_effect, Step.onAcis, if_pos asks] at enters
    exact absurd (List.mem_append_right _ List.mem_cons_self) enters

/-- Where nothing takes requests out, none is made. -/
theorem requests_eq_nil
    (vain : InVain revision (.setAttributes change :: requests.map .request ++ later))
    (apart : ∀ step ∈ later, ∀ group, (step.effect group).requests = group.requests) :
    requests = [] := by
  have back := (vain { revision } rfl).2
  rw [Snapshot.after_append] at back
  have kept := (Snapshot.after_eq Snapshot.requests apart _).symm.trans
    (congrArg Snapshot.requests back)
  rw [requests_after] at kept
  exact kept

end

end InVain

end Step

/-! ### Changes that set nothing -/

/-- The member without the profile key. -/
def Member.unkeyed (member : Member) : Member :=
  { member with profileKey := [] }

namespace Change

/-- Whether a change says nothing about who is in the group, invited or asks to be let in. -/
structure MembershipUnset (change : Change) : Prop where
  newMembers : change.newMembers = []
  removedMembers : change.removedMembers = []
  roleChanges : change.roleChanges = []
  newInvites : change.newInvites = []
  revokedInvites : change.revokedInvites = []
  acceptedInvites : change.acceptedInvites = []
  newRequests : change.newRequests = []
  refusedRequests : change.refusedRequests = []
  approvedRequests : change.approvedRequests = []
  acceptedPniInvites : change.acceptedPniInvites = []

/-- Whether a change says nothing about an attribute. Numbers without a name say nothing. -/
structure AttributesUnset (change : Change) : Prop where
  title : change.title = none
  avatar : change.avatar = none
  timer : change.timer = none
  attributesAccess : change.attributesAccess.isSet = false
  membersAccess : change.membersAccess.isSet = false
  inviteLinkAccess : change.inviteLinkAccess.isSet = false
  linkPassword : change.linkPassword = []
  description : change.description = none
  announcements : change.announcements.isSet = false

variable {change : Change}

theorem keepsMembershipAndAttributes_iff :
    change.keepsMembershipAndAttributes = true ↔
      change.MembershipUnset ∧ change.AttributesUnset := by
  simp only [keepsMembershipAndAttributes, Bool.and_eq_true, List.isEmpty_iff,
    Option.isNone_iff_eq_none, Bool.not_eq_true']
  constructor
  · rintro ⟨⟨⟨⟨⟨⟨⟨⟨⟨⟨⟨⟨⟨⟨⟨⟨⟨⟨new, removed⟩, roles⟩, invites⟩, revoked⟩, accepted⟩, title⟩, avatar⟩,
      timer⟩, attributes⟩, members⟩, link⟩, requests⟩, refused⟩, approved⟩, password⟩, description⟩,
      announcements⟩, pni⟩
    exact ⟨⟨new, removed, roles, invites, revoked, accepted, requests, refused, approved, pni⟩,
      ⟨title, avatar, timer, attributes, members, link, password, description, announcements⟩⟩
  · rintro ⟨lists, values⟩
    simp only [lists.newMembers, lists.removedMembers, lists.roleChanges, lists.newInvites,
      lists.revokedInvites, lists.acceptedInvites, lists.newRequests, lists.refusedRequests,
      lists.approvedRequests, lists.acceptedPniInvites, values.title, values.avatar, values.timer,
      values.attributesAccess, values.membersAccess, values.inviteLinkAccess, values.linkPassword,
      values.description, values.announcements, and_self]

theorem isEmpty_iff :
    change.isEmpty = true ↔ change.profileKeyChanges = [] ∧ change.newBans = []
      ∧ change.liftedBans = [] ∧ change.MembershipUnset ∧ change.AttributesUnset := by
  simp only [isEmpty, isEmptyExceptProfileKeys, Bool.and_eq_true, List.isEmpty_iff,
    keepsMembershipAndAttributes_iff, and_assoc]

/-- Whoever is not told of a change misses profile keys and bans at most. -/
theorem keeps_of_isSilent (silent : change.isSilent = true) :
    change.MembershipUnset ∧ change.AttributesUnset := by
  apply keepsMembershipAndAttributes_iff.1
  rcases Bool.or_eq_true_iff.1 silent with quiet | banning
  · exact (Bool.and_eq_true_iff.1 quiet).2
  · exact (Bool.and_eq_true_iff.1 banning).2

theorem AttributesUnset.setAttributes_eq (unset : change.AttributesUnset) (group : Snapshot) :
    group.setAttributes change = group := by
  simp [Snapshot.setAttributes, Snapshot.accessAfter, unset.title, unset.avatar, unset.timer,
    unset.attributesAccess, unset.membersAccess, unset.inviteLinkAccess, unset.linkPassword,
    unset.description, unset.announcements]

/-! ### Changes without effect set nothing -/

/-- A change has no effect if it only moves every group to its revision. -/
theorem inVain_steps_iff :
    Step.InVain change.revision change.steps ↔
      ∀ group : Snapshot, group.apply change = .ok (group.atRevision change.revision) := by
  constructor
  · intro vain group
    exact Snapshot.apply_eq_ok_iff.2 (vain (group.atRevision change.revision) rfl)
  · rintro inert group current
    have same : group.atRevision change.revision = group := by rw [← current]; rfl
    have applied := Snapshot.apply_eq_ok_iff.1 (inert group)
    rwa [same] at applied

/-- Whatever a change sets an attribute to, some group has it otherwise. -/
theorem attributesUnset_of_inVain (vain : Step.InVain change.revision change.steps) :
    change.AttributesUnset := by
  have sets : ∀ group : Snapshot, group.revision = change.revision →
      group.bare.setAttributes change = group.bare := by
    intro group current
    rw [← Snapshot.bare_after_steps, (vain group current).2]
  -- a text that changes neither of two texts is none
  have text : ∀ {new : Option Text}, (∀ old, (new.map (·.value)).getD old = old) → new = none := by
    intro new keeps
    cases new with
    | none => rfl
    | some text => exact absurd ((keeps "").symm.trans (keeps "other")) (by decide)
  -- the other attributes show on a group where none is set
  have blank := sets { revision := change.revision } rfl
  have access := congrArg Snapshot.access blank
  have rights : (change.attributesAccess.isSet || change.membersAccess.isSet
      || change.inviteLinkAccess.isSet) = false := by
    apply Bool.eq_false_iff.2
    intro set
    simp only [Snapshot.setAttributes, Snapshot.accessAfter, if_pos set] at access
    cases access
  obtain ⟨rights, link⟩ := Bool.or_eq_false_iff.1 rights
  obtain ⟨attributes, members⟩ := Bool.or_eq_false_iff.1 rights
  refine ⟨text fun old => ?_, text fun old => ?_, ?_, attributes, members, link, ?_,
    text fun old => ?_, ?_⟩
  · exact congrArg Snapshot.title (sets { revision := change.revision, title := old } rfl)
  · exact congrArg Snapshot.avatar (sets { revision := change.revision, avatar := old } rfl)
  · have timer := congrArg Snapshot.timer blank
    cases set : change.timer with
    | none => rfl
    | some new => simp [Snapshot.setAttributes, set, Snapshot.bare] at timer
  · have password := congrArg Snapshot.linkPassword blank
    simpa [Snapshot.setAttributes, Snapshot.bare] using password
  · exact congrArg Snapshot.description
      (sets { revision := change.revision, description := old } rfl)
  · have state := congrArg Snapshot.announcements blank
    apply Bool.eq_false_iff.2
    intro set
    simp only [Snapshot.setAttributes, if_pos set] at state
    rw [state] at set
    cases set

/-- A ban shows where nobody is banned yet, and a lifted ban where just that one is. -/
theorem bans_unset_of_inert
    (inert : ∀ group : Snapshot, group.apply change = .ok (group.atRevision change.revision)) :
    change.newBans = [] ∧ change.liftedBans = [] := by
  have lifted : change.liftedBans = [] := by
    apply List.eq_nil_iff_forall_not_mem.2
    intro ban mem
    -- a ban that is lifted would be missing on a group with this ban only
    have kept := Snapshot.banned_apply (inert { bans := [ban] })
    have stays : ban.serviceId ∈ (Snapshot.banAll [ban.serviceId]
        (change.newBans.map (·.serviceId))).diff (change.liftedBans.map (·.serviceId)) :=
      kept ▸ List.mem_cons_self
    have distinct : (Snapshot.banAll [ban.serviceId] (change.newBans.map (·.serviceId))).Nodup :=
      Snapshot.nodup_banAll (List.nodup_singleton _)
    exact (distinct.mem_sdiff_iff.1 stays).2 (List.mem_map_of_mem mem)
  -- and without bans that are lifted, one that is made would show on an empty group
  have kept := Snapshot.banned_apply (inert {})
  rw [lifted, List.map_nil, List.diff_nil] at kept
  refine ⟨List.eq_nil_iff_forall_not_mem.2 fun ban mem => ?_, lifted⟩
  have banned : ban.serviceId ∈ Snapshot.banAll [] (change.newBans.map (·.serviceId)) :=
    Snapshot.mem_banAll.2 (Or.inr (List.mem_map_of_mem mem))
  change [] = Snapshot.banAll [] _ at kept
  rw [← kept] at banned
  cases banned

private theorem eq_nil_of_no_step {α : Type} {kind : α → Step} {entries : List α}
    {steps : List Step} (part : ∀ step ∈ entries.map kind, step ∈ steps)
    (none : ∀ entry, kind entry ∉ steps) : entries = [] :=
  List.eq_nil_iff_forall_not_mem.2 fun entry mem => none entry (part _ (List.mem_map_of_mem mem))

/-- The lists are found empty one after the other, each by a group on which what is left of the
change would show. -/
theorem lists_unset_of_inVain (vain : Step.InVain change.revision change.steps)
    (newBans : change.newBans = []) (liftedBans : change.liftedBans = []) :
    change.profileKeyChanges = [] ∧ change.MembershipUnset := by
  have newMembers : change.newMembers = [] :=
    eq_nil_of_no_step (fun _ mem => by simp [steps, mem]) vain.no_add
  simp only [steps, newMembers, newBans, liftedBans, List.map_nil, List.nil_append,
    List.append_nil, List.append_assoc] at vain
  -- nobody can be removed or changed in a group without members, so no step asks for it
  have deserted : ∀ id, id ∉ Snapshot.memberAcis { revision := change.revision } :=
    fun _ => List.not_mem_nil
  have removedMembers := vain.eq_nil_of_not_ready deserted
  rw [removedMembers, List.map_nil, List.nil_append] at vain
  have roleChanges := vain.eq_nil_of_not_ready fun _ ready => deserted _ ready.2
  rw [roleChanges, List.map_nil, List.nil_append] at vain
  have profileKeyChanges := vain.eq_nil_of_not_ready fun _ => deserted _
  rw [profileKeyChanges, List.map_nil, List.nil_append] at vain
  -- nobody leaves any more, so whoever comes in shows
  have notAccepted := vain.no_accept (by simp)
  have notPniAccepted := vain.no_acceptPni (by simp)
  have notInvited := fun entry => vain.no_invite entry notAccepted notPniAccepted
  have newInvites : change.newInvites = [] :=
    eq_nil_of_no_step (fun _ mem => by simp [mem]) notInvited
  have revokedInvites : change.revokedInvites = [] :=
    eq_nil_of_no_step (fun _ mem => by simp [mem]) vain.no_revoke
  have acceptedInvites : change.acceptedInvites = [] :=
    eq_nil_of_no_step (fun _ mem => by simp [mem]) notAccepted
  have acceptedPniInvites : change.acceptedPniInvites = [] :=
    eq_nil_of_no_step (fun _ mem => by simp [mem]) notPniAccepted
  simp only [newInvites, revokedInvites, acceptedInvites, acceptedPniInvites, List.map_nil,
    List.nil_append, List.append_nil] at vain
  have refusedRequests := vain.refusals_eq_nil (by simp)
  rw [refusedRequests, List.map_nil, List.nil_append] at vain
  have approvedRequests := vain.approvals_eq_nil
  rw [approvedRequests, List.map_nil] at vain
  have newRequests := vain.requests_eq_nil (by simp)
  exact ⟨profileKeyChanges, newMembers, removedMembers, roleChanges, newInvites, revokedInvites,
    acceptedInvites, newRequests, refusedRequests, approvedRequests, acceptedPniInvites⟩

/-! ### What little a change does -/

/-- Profile keys and bans are the only things that a change can be silent about. -/
theorem apply_of_unset {group result : Snapshot} (membership : change.MembershipUnset)
    (attributes : change.AttributesUnset) (applied : group.apply change = .ok result) :
    result = { group with
        revision := change.revision, members := result.members, bans := result.bans }
      ∧ result.members.map Member.unkeyed = group.members.map Member.unkeyed := by
  obtain ⟨-, rfl⟩ := Snapshot.apply_eq_ok_iff.1 applied
  -- the invariant is told of the group as it is after every step
  refine Snapshot.after_keeps (P := fun next =>
    next = { group with
        revision := change.revision, members := next.members, bans := next.bans }
      ∧ next.members.map Member.unkeyed = group.members.map Member.unkeyed) ?_ ⟨rfl, rfl⟩
  rintro step mem next ⟨rest, members⟩
  -- with all lists of the membership empty four kinds of steps are left
  have kinds : (∃ entry, step = .changeProfileKey entry) ∨ step = .setAttributes change
      ∨ (∃ ban, step = .ban ban) ∨ ∃ ban, step = .liftBan ban := by
    simp only [steps, membership.newMembers, membership.removedMembers, membership.roleChanges,
      membership.newInvites, membership.revokedInvites, membership.acceptedInvites,
      membership.newRequests, membership.refusedRequests, membership.approvedRequests,
      membership.acceptedPniInvites, List.map_nil, List.nil_append, List.append_nil,
      List.mem_append, List.mem_map, List.mem_singleton] at mem
    rcases mem with ((⟨entry, -, rfl⟩ | rfl) | ⟨ban, -, rfl⟩) | ⟨ban, -, rfl⟩
    · exact Or.inl ⟨entry, rfl⟩
    · exact Or.inr (Or.inl rfl)
    · exact Or.inr (Or.inr (Or.inl ⟨ban, rfl⟩))
    · exact Or.inr (Or.inr (Or.inr ⟨ban, rfl⟩))
  rcases kinds with ⟨entry, rfl⟩ | rfl | ⟨ban, rfl⟩ | ⟨ban, rfl⟩
  · have unkeyed : ((Step.changeProfileKey entry).effect next).members.map Member.unkeyed =
        next.members.map Member.unkeyed := by
      apply map_modifyFirst
      intro member _
      rfl
    refine ⟨?_, unkeyed.trans members⟩
    rw [rest]
    rfl
  · have same : (Step.setAttributes change).effect next = next :=
      attributes.setAttributes_eq next
    rw [same]
    exact ⟨rest, members⟩
  · refine ⟨?_, members⟩
    rw [rest]
    rfl
  · refine ⟨?_, members⟩
    rw [rest]
    rfl

theorem apply_of_isEmpty (empty : change.isEmpty = true) (group : Snapshot) :
    group.apply change = .ok (group.atRevision change.revision) := by
  obtain ⟨profileKeys, newBans, liftedBans, membership, attributes⟩ := isEmpty_iff.1 empty
  have only : change.steps = [.setAttributes change] := by
    simp only [steps, profileKeys, newBans, liftedBans, membership.newMembers,
      membership.removedMembers, membership.roleChanges, membership.newInvites,
      membership.revokedInvites, membership.acceptedInvites, membership.newRequests,
      membership.refusedRequests, membership.approvedRequests, membership.acceptedPniInvites,
      List.map_nil, List.nil_append, List.append_nil]
  apply Snapshot.apply_eq_ok_iff.2
  rw [only]
  exact ⟨⟨trivial, trivial⟩, attributes.setAttributes_eq _⟩

/-- A change counts as empty exactly if all it does to any group is to move it to its revision, and
a silent one changes no more than profile keys and bans. -/
theorem emptiness_exact (change : Change) :
    (change.isEmpty = true ↔
      ∀ group : Snapshot, group.apply change = .ok { group with revision := change.revision })
    ∧ (change.isSilent = true →
      ∀ group result : Snapshot, group.apply change = .ok result →
        result = { group with
            revision := change.revision, members := result.members, bans := result.bans }
          ∧ result.members.map Member.unkeyed = group.members.map Member.unkeyed) := by
  refine ⟨⟨apply_of_isEmpty, fun inert => ?_⟩, fun silent group result applied => ?_⟩
  · have vain := inVain_steps_iff.2 inert
    obtain ⟨newBans, liftedBans⟩ := bans_unset_of_inert inert
    obtain ⟨profileKeys, membership⟩ := lists_unset_of_inVain vain newBans liftedBans
    exact isEmpty_iff.2
      ⟨profileKeys, newBans, liftedBans, membership, attributesUnset_of_inVain vain⟩
  · obtain ⟨membership, attributes⟩ := keeps_of_isSilent silent
    exact apply_of_unset membership attributes applied

end Change

namespace Sample

/-- Rights and an announcement state without a name are no change, and none to speak of next to a
new profile key and bans. An account that is added and removed again is one. -/
theorem emptiness_exact_sample :
    let unnamed : Change := { revision := 1, membersAccess := ⟨9⟩, announcements := ⟨7⟩ }
    let silent : Change := { unnamed with
      profileKeyChanges := [memberWithProfileKey 2 (profileKey 7).toList]
      newBans := [ban 3 20]
      liftedBans := [ban 4 0] }
    let detour : Change := { newMembers := [member 2], removedMembers := [aci 2] }
    let group : Snapshot := { members := [administrator 1, member 2], bans := [ban 4 10] }
    let rekeyed : Snapshot := {
      revision := 1
      members := [administrator 1, memberWithProfileKey 2 (profileKey 7).toList]
      bans := [ban 3 20] }
    (∀ group : Snapshot, group.apply unnamed = .ok { group with revision := 1 })
      ∧ group.apply silent = .ok rekeyed
      ∧ rekeyed.members.map Member.unkeyed = group.members.map Member.unkeyed
      ∧ ¬ ∀ group : Snapshot, group.apply detour = .ok { group with revision := 0 } := by
  intro unnamed silent detour group rekeyed
  have applied : group.apply silent = .ok rekeyed := by decide +kernel
  refine ⟨(Change.emptiness_exact unnamed).1.1 (by decide), applied, ?_, ?_⟩
  · exact ((Change.emptiness_exact silent).2 (by decide) group rekeyed applied).2
  · exact mt (Change.emptiness_exact detour).1.2 (by decide)

end Sample

end SealedGroups
