import SealedGroups.Proofs.Following
import SealedGroups.Proofs.RebasedActions

/-!
# When members joined

A member bears the revision at which it joined, and the difference of two snapshots goes by it to
tell who was approved. That revision is set where a change is decrypted for whoever is added or
accepts an invite, and where it is applied for whoever is approved.

A change that is decrypted is dated (`dated_of_opens`): those it brings along join at its own
revision. Whoever is a member after a step either is such a newcomer, or has the account and the
join revision of a member before it (`hasJoined_or_brings_of_effect`). So nobody has joined later
than the group is, in any run of decrypted changes, and whoever has joined at its very revision is
named by the last change (`timely_of_reaches`).
-/

namespace SealedGroups

/-- Nobody has joined at a revision that is still to come. -/
def Snapshot.Timely (group : Snapshot) : Prop :=
  ∀ member ∈ group.members, member.joinedAt ≤ group.revision

/-- Whether a member with the same account has joined the group at the same revision. -/
def Snapshot.HasJoined (group : Snapshot) (member : Member) : Prop :=
  ∃ old ∈ group.members, old.aci = member.aci ∧ old.joinedAt = member.joinedAt

/-- The accounts that a change makes members, or members anew. -/
def Change.arrivals (change : Change) : List Bytes :=
  change.newMembers.map (·.aci) ++ change.acceptedInvites.map (·.aci)
    ++ change.approvedRequests.map (·.aci) ++ change.acceptedPniInvites.map (·.aci)

/-- The members that a change brings along join at its revision. -/
def Change.Dated (change : Change) : Prop :=
  ∀ member ∈ change.newMembers ++ change.acceptedInvites ++ change.acceptedPniInvites,
    member.joinedAt = change.revision

/-- The second group comes out of the first by changes that the client decrypts, each of them the
next one. -/
inductive GroupClient.Reaches (client : GroupClient) (group : Snapshot) : Snapshot → Prop where
  | start : client.Reaches group group
  | step {middle next : Snapshot} {actions : Sealed.Actions} {source : Option ServiceId}
      {change : Change} (run : client.Reaches group middle)
      (opened : (client.openActions actions source).outcome = .ok change)
      (applied : middle.applyNext change = .ok next) : client.Reaches group next

/-! ### Decrypted changes are dated -/

namespace GroupClient

variable {client : GroupClient} {revision : UInt32} {member : Member}

theorem joinedAt_of_openMember {sealed : Sealed.Member}
    (opened : client.openMember revision sealed = .ok member) : member.joinedAt = revision := by
  obtain ⟨person, -, same⟩ := bind_eq_ok_iff.1 opened
  cases same
  rfl

theorem joinedAt_of_openAcceptance {entry : Sealed.Identity}
    (opened : client.openAcceptance revision entry = .ok member) : member.joinedAt = revision := by
  obtain ⟨person, -, same⟩ := bind_eq_ok_iff.1 opened
  cases same
  rfl

theorem joinedAt_of_openPniAcceptance {entry : Sealed.PniIdentity}
    (opened : client.openPniAcceptance revision entry = .ok member) :
    member.joinedAt = revision := by
  obtain ⟨person, -, invited⟩ := bind_eq_ok_iff.1 opened
  obtain ⟨id, -, same⟩ := bind_eq_ok_iff.1 invited
  cases id with
  | aci aci => cases same
  | pni pni =>
    cases same
    rfl

theorem dated_of_opens {actions : Sealed.Actions} {change : Change}
    (opens : client.Opens actions change) : change.Dated := by
  intro member mem
  rw [← opens.revision]
  rcases List.mem_append.1 mem with mem | accepted
  · rcases List.mem_append.1 mem with added | accepted
    · obtain ⟨entry, -, opened⟩ := mem_of_mapM opens.newMembers added
      obtain ⟨sealed, -, opened⟩ := bind_eq_ok_iff.1 opened
      exact joinedAt_of_openMember opened
    · obtain ⟨entry, -, opened⟩ := mem_of_mapM opens.acceptedInvites accepted
      exact joinedAt_of_openAcceptance opened
  · obtain ⟨entry, -, opened⟩ := mem_of_mapM opens.acceptedPniInvites accepted
    exact joinedAt_of_openPniAcceptance opened

end GroupClient

/-! ### Whom a step brings -/

/-- Whether a step is about a newcomer with the account and the join revision of a member. -/
def Step.Brings (member : Member) : Step → Prop
  | .add new => new = member
  | .accept new => new = member
  | .approve revision entry => entry.aci = member.aci ∧ revision = member.joinedAt
  | .acceptPni new => new = member
  | _ => False

namespace Change

/-- Whomever the steps of a dated change bring joins at its revision and is named by it. -/
theorem arrives_of_brings {change : Change} (dated : change.Dated) {step : Step} {member : Member}
    (mem : step ∈ change.steps) (brings : step.Brings member) :
    member.joinedAt = change.revision ∧ member.aci ∈ change.arrivals := by
  cases step with
  | add new =>
    cases brings
    have added : member ∈ change.newMembers := mem_steps.1 mem
    exact ⟨dated member (by simp [added]), by
      simp only [arrivals, List.mem_append, List.mem_map_of_mem added, true_or]⟩
  | accept new =>
    cases brings
    have accepted : member ∈ change.acceptedInvites := mem_steps.1 mem
    exact ⟨dated member (by simp [accepted]), by
      simp only [arrivals, List.mem_append, List.mem_map_of_mem accepted, true_or, or_true]⟩
  | approve revision entry =>
    -- an approval dates the member itself, all others were dated when they were opened
    obtain ⟨aci, joined⟩ := brings
    obtain ⟨approved, rfl⟩ := mem_steps.1 mem
    refine ⟨joined.symm, ?_⟩
    rw [← aci]
    simp only [arrivals, List.mem_append, List.mem_map_of_mem approved, true_or, or_true]
  | acceptPni new =>
    cases brings
    have accepted : member ∈ change.acceptedPniInvites := mem_steps.1 mem
    exact ⟨dated member (by simp [accepted]), by
      simp only [arrivals, List.mem_append, List.mem_map_of_mem accepted, or_true]⟩
  | _ => cases brings

end Change

namespace Snapshot

variable {group next : Snapshot} {change : Change}

/-- Replacing what a member is otherwise leaves its account and its join revision. -/
theorem hasJoined_of_mem_modifyFirst {fits : Member → Bool} {f : Member → Member} {member : Member}
    (keeps : ∀ old, (f old).aci = old.aci ∧ (f old).joinedAt = old.joinedAt)
    (h : member ∈ modifyFirst fits f group.members) : group.HasJoined member := by
  rcases mem_modifyFirst h with there | ⟨old, there, -, rfl⟩
  · exact ⟨member, there, rfl, rfl⟩
  · exact ⟨old, there, (keeps old).1.symm, (keeps old).2.symm⟩

/-- After a step, a member is one whom the step brings or has joined before. -/
theorem hasJoined_or_brings_of_effect {step : Step} {member : Member}
    (h : member ∈ (step.effect group).members) :
    group.HasJoined member ∨ step.Brings member := by
  -- who is there under the same name and of the same date has joined before
  have stays : member ∈ group.members → group.HasJoined member ∨ step.Brings member :=
    fun there => Or.inl ⟨member, there, rfl, rfl⟩
  cases step with
  | add new =>
    change member ∈ placeMember group.members new at h
    unfold placeMember at h
    split at h
    · rcases mem_modifyFirst h with there | ⟨old, -, -, rfl⟩
      · exact stays there
      · exact Or.inr rfl
    · rcases List.mem_append.1 h with there | placed
      · exact stays there
      · exact Or.inr (List.mem_singleton.1 placed).symm
  | remove aci => exact stays (List.mem_of_mem_eraseP h)
  | changeRole entry =>
    refine Or.inl (hasJoined_of_mem_modifyFirst ?_ h)
    intro old
    exact ⟨rfl, rfl⟩
  | changeProfileKey entry =>
    refine Or.inl (hasJoined_of_mem_modifyFirst ?_ h)
    intro old
    exact ⟨rfl, rfl⟩
  | accept new =>
    rcases List.mem_append.1 h with there | accepted
    · exact stays there
    · exact Or.inr (List.mem_singleton.1 accepted).symm
  | approve revision entry =>
    rcases List.mem_append.1 h with there | approved
    · exact stays there
    · obtain ⟨request, found, rfl⟩ := Option.map_eq_some_iff.1 (Option.mem_toList.1 approved)
      have same : request.aci = entry.aci := by simpa using List.find?_some found
      exact Or.inr ⟨same.symm, rfl⟩
  | acceptPni new =>
    rcases List.mem_append.1 h with there | accepted
    · exact stays there
    · exact Or.inr (List.mem_singleton.1 accepted).symm
  | _ => exact stays h

/-- After a dated change, a member has joined at the new revision and is named by the change, or has
joined before. -/
theorem arrives_or_hasJoined (dated : change.Dated) (applied : group.apply change = .ok next)
    {member : Member} (mem : member ∈ next.members) :
    (member.joinedAt = next.revision ∧ member.aci ∈ change.arrivals) ∨ group.HasJoined member := by
  rw [revision_apply applied]
  obtain ⟨-, rfl⟩ := apply_eq_ok_iff.1 applied
  refine after_keeps (P := fun g => ∀ m ∈ g.members,
    (m.joinedAt = change.revision ∧ m.aci ∈ change.arrivals) ∨ group.HasJoined m) ?_ ?_ member mem
  · -- the invariant: whoever is there came with this change or was there before it
    intro step hstep g known m hm
    rcases hasJoined_or_brings_of_effect hm with ⟨old, there, aci, joined⟩ | brings
    · simpa only [HasJoined, aci, joined] using known old there
    · exact Or.inl (Change.arrives_of_brings dated hstep brings)
  · intro m there
    exact Or.inr ⟨m, there, rfl, rfl⟩

/-- The next change, if it is dated, keeps a group timely. -/
theorem Timely.applyNext (timely : group.Timely) (dated : change.Dated)
    (applied : group.applyNext change = .ok next) : next.Timely := by
  obtain ⟨adjacent, applied⟩ := applyNext_eq_ok_iff.1 applied
  intro member mem
  rcases arrives_or_hasJoined dated applied mem with ⟨joined, -⟩ | ⟨old, there, -, joined⟩
  · exact UInt32.le_of_eq joined
  · -- the revision of the change is one more, and old dates were not beyond the old one
    have before := UInt32.le_iff_toNat_le.1 (timely old there)
    rw [← joined, revision_apply applied, UInt32.le_iff_toNat_le]
    omega

/-- Along a run of decrypted changes nobody has joined later than the group is. The last change
names whoever has joined at the newest revision, and everyone else has joined before it. -/
theorem timely_of_reaches {client : GroupClient} {start : Snapshot} {actions : Sealed.Actions}
    {source : Option ServiceId} (timely : start.Timely) (run : client.Reaches start group)
    (opened : (client.openActions actions source).outcome = .ok change)
    (applied : group.applyNext change = .ok next) :
    group.Timely ∧ next.Timely ∧ ∀ member ∈ next.members,
      ((member.joinedAt = next.revision ∧ member.aci ∈ change.arrivals) ∨ group.HasJoined member)
        ∧ (member.joinedAt = next.revision → member.aci ∈ change.arrivals) := by
  have groupTimely : group.Timely := by
    -- what is opened and applied last is no part of the run
    clear opened applied
    induction run with
    | start => exact timely
    | step run opened applied ih =>
      exact ih.applyNext (client.dated_of_opens (client.opens_of_openActions opened)) applied
  have dated : change.Dated :=
    GroupClient.dated_of_opens (GroupClient.opens_of_openActions opened)
  refine ⟨groupTimely, groupTimely.applyNext dated applied, ?_⟩
  obtain ⟨adjacent, applied⟩ := applyNext_eq_ok_iff.1 applied
  intro member mem
  have arrives := arrives_or_hasJoined dated applied mem
  refine ⟨arrives, fun newest => ?_⟩
  rcases arrives with ⟨-, named⟩ | ⟨old, there, -, joined⟩
  · exact named
  · -- whoever was there before has an older date than the newest
    have before := UInt32.le_iff_toNat_le.1 (groupTimely old there)
    rw [joined, newest, revision_apply applied] at before
    omega

open Sample in
/-- One account is added, then another that has asked to join is approved. -/
theorem timely_of_reaches_sample :
    let start : Snapshot := {
      revision := 4
      members := [{ administrator 1 with joinedAt := 4 }]
      requests := [request 3] }
    let middle : Snapshot := { start with
      revision := 5
      members := [{ administrator 1 with joinedAt := 4 }, { member 2 with joinedAt := 5 }] }
    let result : Snapshot := {
      revision := 6
      members := [{ administrator 1 with joinedAt := 4 }, { member 2 with joinedAt := 5 },
        { administrator 3 with joinedAt := 6 }] }
    let actions : Sealed.Actions := {
      revision := 6
      approvedRequests := [{
        userId := (doorkeeper.keys.sealIdentity (.aci (uuid 3))).toList, role := .administrator }] }
    let change : Change := {
      editor := aci 1, revision := 6, approvedRequests := [administratorApproval 3] }
    start.Timely ∧ doorkeeper.Reaches start middle
      ∧ (doorkeeper.openActions actions (some (.aci (uuid 1)))).outcome = .ok change
      ∧ middle.applyNext change = .ok result
      ∧ middle.Timely ∧ result.Timely ∧ ∀ member ∈ result.members,
        ((member.joinedAt = result.revision ∧ member.aci ∈ change.arrivals)
          ∨ middle.HasJoined member)
          ∧ (member.joinedAt = result.revision → member.aci ∈ change.arrivals) := by
  intro start middle result actions change
  have timely : start.Timely := by
    intro member mem
    cases List.mem_singleton.1 mem
    decide
  have added : (doorkeeper.openActions
      { revision := 5, newMembers := [{ added := some (sealedMember 2) }] }
      (some (.aci (uuid 1)))).outcome =
      .ok { editor := aci 1, revision := 5, newMembers := [{ member 2 with joinedAt := 5 }] } := by
    refine GroupClient.openActions_eq_ok_iff.2 ⟨?_, rfl⟩
    constructor
    case newMembers => exact mapM_singleton_eq_ok (open_addition (by decide) 5)
    all_goals rfl
  have run : doorkeeper.Reaches start middle :=
    GroupClient.Reaches.start.step added (by decide +kernel)
  have opened :
      (doorkeeper.openActions actions (some (.aci (uuid 1)))).outcome = .ok change := by
    refine GroupClient.openActions_eq_ok_iff.2 ⟨?_, rfl⟩
    constructor
    case approvedRequests =>
      apply mapM_singleton_eq_ok
      rw [doorkeeper.openAci_sealIdentity]
      rfl
    all_goals rfl
  have applied : middle.applyNext change = .ok result := by decide +kernel
  exact ⟨timely, run, opened, applied, timely_of_reaches timely run opened applied⟩

end Snapshot

end SealedGroups
