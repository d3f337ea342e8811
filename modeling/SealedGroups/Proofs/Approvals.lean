import SealedGroups.Proofs.Difference.Members
import SealedGroups.Proofs.Difference.Requests
import SealedGroups.Proofs.Footprint

/-!
# What an inferred approval brings back

When a change is inferred from two snapshots, some of those who are new are found to have been
approved. An approval only says the role to join with. The account and the profile key come from the
request when the change is applied, and the join revision is the one of the change; so these must be
as in the later snapshot, and they are. That the new member has no phone number identity is not
looked at, though, and nothing brings one back (`approval_forgets_pni`). So an approval makes the
member of the later snapshot without that identity, and exactly the member if there was none
(`approval_exact_iff`).

Nothing but the approval is about the account in the inferred change. So the approval finds the
request as it was and no such member, and no later step touches the member that it makes
(`members_around_approve`).
-/

namespace SealedGroups

/-- What is named once in a run of steps, by one of them, none of the others names. -/
theorem Step.not_mem_others_of_count {about : Step → List Bytes} {before later : List Step}
    {step : Step} {id : Bytes} (here : id ∈ about step)
    (once : ((before ++ step :: later).flatMap about).count id = 1) :
    ∀ s ∈ before ++ later, id ∉ about s := by
  -- the step accounts for the one time, which leaves none for the others
  have named := List.count_pos_iff.2 here
  rw [List.flatMap_append, List.flatMap_cons, List.count_append, List.count_append] at once
  have unnamed : ((before ++ later).flatMap about).count id = 0 := by
    rw [List.flatMap_append, List.count_append]
    omega
  intro s hs again
  exact List.count_eq_zero.1 unnamed (List.mem_flatMap.2 ⟨s, hs, again⟩)

namespace Change

variable {old new : Snapshot} {member : Member}

/-! ### Whoever was approved is named once -/

/-- Whoever was approved came in in no other way. -/
theorem count_of_approved (distinct : new.memberAcis.Nodup)
    (approved : member ∈ approvedMembers old new) :
    ((stayedMembers old new).map (·.aci)).count member.aci = 0
      ∧ ((between old new).newMembers.map (·.aci)).count member.aci = 0
      ∧ ((between old new).acceptedInvites.map (·.aci)).count member.aci = 0
      ∧ ((approvedMembers old new).map (·.aci)).count member.aci = 1
      ∧ ((between old new).acceptedPniInvites.map (·.aci)).count member.aci = 0 := by
  have named : 0 < ((approvedMembers old new).map (·.aci)).count member.aci :=
    List.count_pos_iff.2 (List.mem_map_of_mem approved)
  -- the members are split by how they came in, and together name the account at most once
  have once := List.nodup_iff_count_le_one.1 distinct member.aci
  rw [Snapshot.memberAcis, ((members_perm old new).map (·.aci)).count_eq] at once
  simp only [List.map_append, List.count_append] at once
  omega

theorem approvedRequests_acis (old new : Snapshot) :
    (between old new).approvedRequests.map (·.aci) = (approvedMembers old new).map (·.aci) := by
  have entries : (between old new).approvedRequests =
      (approvedMembers old new).map fun m => ⟨m.aci, m.role⟩ := rfl
  rw [entries, List.map_map]
  rfl

theorem count_valueChanges_of_approved {β γ : Type} [DecidableEq β] {value : Member → β}
    {entry : Member → γ} {about : γ → Bytes} (about_entry : ∀ m, about (entry m) = m.aci)
    (stranger : member.aci ∉ old.memberAcis) :
    ((valueChanges old new value entry).map about).count member.aci = 0 := by
  apply List.count_eq_zero.2
  intro named
  obtain ⟨e, changed, same⟩ := List.mem_map.1 named
  -- only those who were members before have a value that changes
  obtain ⟨m, -, ⟨previous, stayed, -⟩, rfl⟩ := mem_valueChanges.1 changed
  rw [about_entry] at same
  exact stranger (same ▸ mem_of_entrance stayed)

theorem count_namedMembers_of_approved (distinct : new.memberAcis.Nodup)
    (approved : member ∈ approvedMembers old new) :
    (between old new).namedMembers.count member.aci = 1 := by
  obtain ⟨mem, stranger, -⟩ := of_mem_approvedMembers approved
  obtain ⟨-, added, accepted, once, acceptedPni⟩ := count_of_approved distinct approved
  -- who was no member before is not removed, nor given a new role or profile key
  have removed : (between old new).removedMembers.count member.aci = 0 :=
    List.count_eq_zero.2 fun gone => stranger (mem_removedMembers.1 gone).1
  have role : ((between old new).roleChanges.map (·.aci)).count member.aci = 0 := by
    rw [roleChanges_eq]
    exact count_valueChanges_of_approved (fun _ => rfl) stranger
  have profileKey : ((between old new).profileKeyChanges.map (·.aci)).count member.aci = 0 := by
    rw [profileKeyChanges_eq]
    exact count_valueChanges_of_approved (fun _ => rfl) stranger
  simp only [namedMembers, List.count_append, added, removed, role, profileKey, accepted,
    acceptedPni, approvedRequests_acis, once]

theorem count_namedRequests_of_approved (distinct : new.identities.Nodup)
    (approved : member ∈ approvedMembers old new) :
    (between old new).namedRequests.count member.aci = 1 := by
  obtain ⟨mem, -⟩ := of_mem_approvedMembers approved
  obtain ⟨-, added, -, once, -⟩ :=
    count_of_approved (List.nodup_append.1 (List.nodup_append.1 distinct).1).1 approved
  -- a request in the new group would be a second standing of the member
  have asked : ((between old new).newRequests.map (·.aci)).count member.aci = 0 := by
    apply List.count_eq_zero.2
    intro named
    obtain ⟨request, made, same⟩ := List.mem_map.1 named
    have requester : member.aci ∈ new.requesters :=
      same ▸ List.mem_map_of_mem (List.mem_of_mem_filter made)
    exact (List.nodup_append.1 distinct).2.2 _ (List.mem_append_left _ (List.mem_map_of_mem mem)) _
      requester rfl
  have refused : (between old new).refusedRequests.count member.aci = 0 := by
    apply List.count_eq_zero.2
    intro named
    obtain ⟨-, -, -, unapproved, -⟩ := mem_refusedRequests.1 named
    exact unapproved (List.mem_map_of_mem approved)
  simp only [namedRequests, List.count_append, added, asked, refused, approvedRequests_acis, once]

end Change

namespace Snapshot

open Change

/-! ### What the approval makes -/

/-- An approved request becomes the member of the later snapshot, without a phone number identity.
-/
theorem toMember_of_approved {new : Snapshot} {member : Member} {request : JoinRequest}
    (held : member.role = .normal ∨ member.role = .administrator) (aci : request.aci = member.aci)
    (key : request.profileKey = member.profileKey) (joined : member.joinedAt = new.revision) :
    Approval.toMember ⟨member.aci, member.role⟩ new.revision request =
      { member with pni := [] } := by
  have isHeld : member.role.isHeld = true := by
    rcases held with role | role <;> rw [role] <;> decide
  have granted : (Approval.mk member.aci member.role).granted = member.role :=
    Approval.granted_of_held isHeld
  rw [Approval.toMember, granted, aci, key, joined]

variable {old new result : Snapshot}

/-- A request that is approved becomes the one member with its account, if there was none before and
no other step is about the account. -/
theorem members_around_approve {group : Snapshot} {before later : List Step} {revision : UInt32}
    {entry : Approval} {request : JoinRequest} (stranger : entry.aci ∉ group.memberAcis)
    (asked : group.requests.find? (·.aci == entry.aci) = some request)
    (members : ∀ s ∈ before ++ later, entry.aci ∉ s.memberIds)
    (requests : ∀ s ∈ before ++ later, entry.aci ∉ s.requestIds) :
    (group.after (before ++ .approve revision entry :: later)).members.filter
      (·.aci == entry.aci) = [entry.toMember revision request] := by
  obtain ⟨membersThen, membersNow⟩ :=
    after_eq_around (fun g => g.members.filter (·.aci == entry.aci))
      (fun s hs => filter_members_effect fun m same => beq_iff_eq.1 same ▸ members s hs)
      group (.approve revision entry)
  obtain ⟨requestsThen, -⟩ :=
    after_eq_around (fun g => g.requests.filter (·.aci == entry.aci))
      (fun s hs => filter_requests_effect fun r same => beq_iff_eq.1 same ▸ requests s hs)
      group (.approve revision entry)
  -- up to the approval the account is no member, and its request is the one of the group
  set found := group.after before
  have noMember : found.members.filter (·.aci == entry.aci) = [] := by
    rw [membersThen, List.filter_eq_nil_iff]
    intro m there same
    exact stranger (List.mem_map.2 ⟨m, there, beq_iff_eq.1 same⟩)
  have theRequest : found.requests.find? (·.aci == entry.aci) = some request := by
    rw [← List.head?_filter, requestsThen, List.head?_filter, asked]
  have aci : request.aci = entry.aci := by simpa using List.find?_some asked
  -- from there on, only the approval adds a member with this account
  refine membersNow.trans ?_
  change (found.members ++ ((found.requests.find? (·.aci == entry.aci)).map
    (entry.toMember revision)).toList).filter (fun m : Member => m.aci == entry.aci) = _
  rw [List.filter_append, noMember, theRequest]
  refine List.filter_eq_self.2 fun m mem => ?_
  rw [List.mem_singleton.1 mem]
  exact beq_iff_eq.2 aci

/-- Applied to the earlier snapshot, the inferred change makes one member of an approved request. -/
theorem members_of_approved {member : Member} (hold : old.identities.Nodup)
    (hnew : new.identities.Nodup)
    (held : ∀ m ∈ new.members, m.role = .normal ∨ m.role = .administrator)
    (approved : member ∈ approvedMembers old new)
    (applied : old.apply (between old new) = .ok result) :
    result.members.filter (·.aci == member.aci) = [{ member with pni := [] }] := by
  obtain ⟨mem, stranger, -, ⟨request, asked, aci, key⟩, joined⟩ := of_mem_approvedMembers approved
  let entry : Approval := ⟨member.aci, member.role⟩
  have listed : entry ∈ (between old new).approvedRequests :=
    List.mem_map_of_mem (f := fun m => (⟨m.aci, m.role⟩ : Approval)) approved
  have step : .approve new.revision entry ∈ (between old new).steps := mem_steps.2 ⟨listed, rfl⟩
  -- the approval is the one step that names the account
  obtain ⟨before, later, split⟩ := List.append_of_mem step
  have memberOnce := count_namedMembers_of_approved
    (List.nodup_append.1 (List.nodup_append.1 hnew).1).1 approved
  have requestOnce := count_namedRequests_of_approved hnew approved
  rw [← memberIds_steps, split] at memberOnce
  rw [← requestIds_steps, split] at requestOnce
  obtain ⟨-, reached⟩ := apply_eq_ok_iff.1 applied
  rw [← reached, split, ← toMember_of_approved (held member mem) aci key joined]
  have absent : entry.aci ∉ (old.atRevision new.revision).memberAcis := stranger
  have found : old.requests.find? (·.aci == member.aci) = some request := by
    rw [← aci]
    exact find_eq_some_of_mem (List.nodup_append.1 hold).2.1 asked
  exact members_around_approve absent found
    (Step.not_mem_others_of_count List.mem_cons_self memberOnce)
    (Step.not_mem_others_of_count List.mem_cons_self requestOnce)

/-- Whoever is found to have been approved is in the later snapshot once, and once in what the
change makes of the earlier one. The two members are the same but for the phone number identity,
which the approval leaves out. -/
theorem approval_exact_iff (hold : old.identities.Nodup) (hnew : new.identities.Nodup)
    (held : ∀ member ∈ new.members, member.role = .normal ∨ member.role = .administrator)
    {entry : Approval} (approved : entry ∈ (between old new).approvedRequests)
    (applied : old.apply (between old new) = .ok result) :
    ∃ member, new.members.filter (·.aci == entry.aci) = [member]
      ∧ result.members.filter (·.aci == entry.aci) = [{ member with pni := [] }]
      ∧ (result.members.filter (·.aci == entry.aci) = [member] ↔ member.pni = []) := by
  obtain ⟨member, hmember, rfl⟩ := List.mem_map.1 approved
  have mem := (of_mem_approvedMembers hmember).1
  have theMember : new.members.filter (·.aci == member.aci) = [member] :=
    filter_eq_singleton_of_mem (List.nodup_append.1 (List.nodup_append.1 hnew).1).1 mem
  have made := members_of_approved hold hnew held hmember applied
  refine ⟨member, theMember, made, ?_⟩
  rw [made]
  constructor
  · intro same
    exact (congrArg Member.pni (List.singleton_inj.1 same)).symm
  · intro none
    rw [← none]

open Sample in
/-- One request is approved, another is refused, and a third account comes in by an invite. -/
theorem approval_exact_iff_sample :
    let old : Snapshot := {
      members := [administrator 1], invites := [invite 4], requests := [request 2, request 3] }
    let new : Snapshot := {
      revision := 1
      members := [administrator 1, member 4, { administrator 2 with joinedAt := 1 }] }
    let entry := administratorApproval 2
    old.identities.Nodup ∧ new.identities.Nodup
      ∧ (∀ member ∈ new.members, member.role = .normal ∨ member.role = .administrator)
      ∧ entry ∈ (between old new).approvedRequests
      ∧ old.apply (between old new) = .ok new
      ∧ ∃ member, new.members.filter (·.aci == entry.aci) = [member]
        ∧ new.members.filter (·.aci == entry.aci) = [{ member with pni := [] }]
        ∧ (new.members.filter (·.aci == entry.aci) = [member] ↔ member.pni = []) := by
  intro old new entry
  have hold : old.identities.Nodup := by decide +kernel
  have hnew : new.identities.Nodup := by decide +kernel
  have held : ∀ member ∈ new.members, member.role = .normal ∨ member.role = .administrator := by
    decide +kernel
  have approved : entry ∈ (between old new).approvedRequests := by decide +kernel
  have applied : old.apply (between old new) = .ok new := by decide +kernel
  exact ⟨hold, hnew, held, approved, applied, approval_exact_iff hold hnew held approved applied⟩

open Sample in
/-- Account 2 asked to join and is in the later snapshot with a phone number identity. The change
calls it approved, and makes a member without that identity. -/
theorem approval_forgets_pni :
    let old : Snapshot := { members := [administrator 1], requests := [request 2] }
    let new : Snapshot := {
      revision := 1, members := [administrator 1, { memberByPni 2 12 with joinedAt := 1 }] }
    let result : Snapshot := {
      revision := 1, members := [administrator 1, { member 2 with joinedAt := 1 }] }
    old.identities.Nodup ∧ new.identities.Nodup
      ∧ (∀ member ∈ old.members ++ new.members,
        member.role = .normal ∨ member.role = .administrator)
      ∧ approval 2 ∈ (between old new).approvedRequests
      ∧ old.apply (between old new) = .ok result
      ∧ result.members.filter (·.aci == aci 2) ≠ new.members.filter (·.aci == aci 2) := by
  decide +kernel

end Snapshot

end SealedGroups
