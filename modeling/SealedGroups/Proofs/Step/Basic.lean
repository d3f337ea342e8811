import SealedGroups.Group.Apply

/-!
# A change as a sequence of steps

Applying a change performs its entries one after the other. A `Step` is one entry, and the
attributes together are one step. That applying a change performs its steps (`apply_eq_run`) is what
lets laws about changes be proved one step at a time.
-/

namespace SealedGroups

/-- One entry of a change, or its attributes. -/
inductive Step where
  | add (member : Member)
  | remove (aci : Bytes)
  | changeRole (entry : RoleChange)
  | changeProfileKey (entry : Member)
  | invite (invite : Invite)
  | revoke (entry : Revocation)
  | accept (member : Member)
  | setAttributes (change : Change)
  | request (request : JoinRequest)
  | refuse (aci : Bytes)
  | approve (revision : UInt32) (entry : Approval)
  | ban (ban : Ban)
  | liftBan (ban : Ban)
  | acceptPni (member : Member)

/-- The steps of a change, in the order in which they are performed. -/
def Change.steps (change : Change) : List Step :=
  change.newMembers.map .add
    ++ change.removedMembers.map .remove
    ++ change.roleChanges.map .changeRole
    ++ change.profileKeyChanges.map .changeProfileKey
    ++ change.newInvites.map .invite
    ++ change.revokedInvites.map .revoke
    ++ change.acceptedInvites.map .accept
    ++ [.setAttributes change]
    ++ change.newRequests.map .request
    ++ change.refusedRequests.map .refuse
    ++ change.approvedRequests.map (.approve change.revision)
    ++ change.newBans.map .ban
    ++ change.liftedBans.map .liftBan
    ++ change.acceptedPniInvites.map .acceptPni

/-- Whether a step is an entry of a change, in the slot for such steps, or its attributes. -/
def Step.ListedIn (change : Change) : Step → Prop
  | .add member => member ∈ change.newMembers
  | .remove aci => aci ∈ change.removedMembers
  | .changeRole entry => entry ∈ change.roleChanges
  | .changeProfileKey entry => entry ∈ change.profileKeyChanges
  | .invite new => new ∈ change.newInvites
  | .revoke entry => entry ∈ change.revokedInvites
  | .accept member => member ∈ change.acceptedInvites
  | .setAttributes new => new = change
  | .request new => new ∈ change.newRequests
  | .refuse aci => aci ∈ change.refusedRequests
  | .approve revision entry => entry ∈ change.approvedRequests ∧ change.revision = revision
  | .ban new => new ∈ change.newBans
  | .liftBan old => old ∈ change.liftedBans
  | .acceptPni member => member ∈ change.acceptedPniInvites

theorem Change.mem_steps {change : Change} {step : Step} :
    step ∈ change.steps ↔ step.ListedIn change := by
  cases step <;> simp [steps, Step.ListedIn]

namespace Snapshot

/-- Performs one step. -/
def perform (group : Snapshot) : Step → Except ApplyError Snapshot
  | .add member => .ok (group.addMembers [member])
  | .remove aci => (group.removeMember aci).outcome
  | .changeRole entry => (group.changeRole entry).outcome
  | .changeProfileKey entry => (group.changeProfileKey entry).outcome
  | .invite invite => (group.addInvite invite).outcome
  | .revoke entry => (group.revokeInvite entry).outcome
  | .accept member => (group.acceptInvite member).outcome
  | .setAttributes change => .ok (group.setAttributes change)
  | .request request => .ok (group.addRequests [request])
  | .refuse aci => (group.refuseRequest aci).outcome
  | .approve revision entry => (approveRequest revision group entry).outcome
  | .ban ban => (group.addBan ban).outcome
  | .liftBan ban => (group.liftBan ban).outcome
  | .acceptPni member => (group.acceptPniInvite member).outcome

/-- Performs steps one after the other. -/
def run (group : Snapshot) (steps : List Step) : Except ApplyError Snapshot :=
  steps.foldlM perform group

/-- The group at another revision. -/
def atRevision (group : Snapshot) (revision : UInt32) : Snapshot :=
  { group with revision }

/-! ### Applying is performing the steps -/

theorem run_append (group : Snapshot) (first rest : List Step) :
    group.run (first ++ rest) = group.run first >>= fun next => next.run rest := by
  simp only [run, List.foldlM_append]

theorem run_then {group next result : Snapshot} {first rest : List Step}
    (before : group.run first = .ok next) (later : next.run rest = .ok result) :
    group.run (first ++ rest) = .ok result := by
  rw [run_append, before]
  exact later

/-- Puts a member in the place of the one with the same account, or else at the end. -/
def placeMember (members : List Member) (member : Member) : List Member :=
  if members.any (·.aci == member.aci) then
    modifyFirst (·.aci == member.aci) (fun _ => member) members
  else members ++ [member]

private theorem foldl_putMember (new : List Member) (group : Snapshot) :
    new.foldl putMember group = { group with members := new.foldl placeMember group.members } := by
  induction new generalizing group with
  | nil => rfl
  | cons member rest ih =>
    have first : group.putMember member =
        { group with members := placeMember group.members member } := by
      unfold putMember placeMember
      split <;> rfl
    rw [List.foldl_cons, first, ih]
    rfl

theorem addMembers_eq (group : Snapshot) (new : List Member) :
    group.addMembers new =
      { group with
        members := new.foldl placeMember group.members
        invites := group.invites.filter fun invite => !new.any (·.aci == invite.invitee)
        requests := group.requests.filter fun request => !new.any (·.aci == request.aci) } := by
  simp only [addMembers, foldl_putMember]

/-- Members are added one by one. -/
theorem addMembers_cons (group : Snapshot) (member : Member) (rest : List Member) :
    group.addMembers (member :: rest) = (group.addMembers [member]).addMembers rest := by
  simp only [addMembers_eq, List.foldl_cons, List.foldl_nil, List.filter_filter, List.any_cons,
    List.any_nil, Bool.or_false, Bool.not_or, Bool.and_comm]

private theorem run_add (new : List Member) (group : Snapshot) :
    group.run (new.map .add) = .ok (group.addMembers new) := by
  induction new generalizing group with
  | nil => rw [addMembers_eq, List.filter_eq_self.2 (by simp), List.filter_eq_self.2 (by simp)]; rfl
  | cons member rest ih => exact (ih _).trans (by rw [← addMembers_cons])

private theorem run_request (new : List JoinRequest) (group : Snapshot) :
    group.run (new.map .request) = .ok (group.addRequests new) := by
  induction new generalizing group with
  | nil => simp [run, addRequests, pure, Except.pure]
  | cons request rest ih =>
    exact (ih _).trans (by simp only [addRequests, List.append_assoc, List.singleton_append])

private theorem run_map {α : Type} (op : Snapshot → α → Noted ApplyError Snapshot)
    (step : α → Step) (group : Snapshot) (entries : List α)
    (h : ∀ group entry, perform group (step entry) = (op group entry).outcome) :
    group.run (entries.map step) = (entries.foldlM op group).outcome := by
  rw [Noted.outcome_foldlM, run, List.foldlM_map]
  congr
  funext group entry
  exact h group entry

/-- Applying a change performs its steps at its revision. -/
theorem apply_eq_run (group : Snapshot) (change : Change) :
    group.apply change = (group.atRevision change.revision).run change.steps := by
  -- each slot is a list of steps, and two of them need a lemma of their own
  simp only [apply, applyNoted, Change.steps, List.append_assoc, run_append, Noted.outcome_bind,
    run_add, run_request,
    run_map removeMember .remove _ _ fun _ _ => rfl,
    run_map changeRole .changeRole _ _ fun _ _ => rfl,
    run_map changeProfileKey .changeProfileKey _ _ fun _ _ => rfl,
    run_map addInvite .invite _ _ fun _ _ => rfl,
    run_map revokeInvite .revoke _ _ fun _ _ => rfl,
    run_map acceptInvite .accept _ _ fun _ _ => rfl,
    run_map refuseRequest .refuse _ _ fun _ _ => rfl,
    run_map (approveRequest change.revision) (.approve change.revision) _ _ fun _ _ => rfl,
    run_map addBan .ban _ _ fun _ _ => rfl,
    run_map liftBan .liftBan _ _ fun _ _ => rfl,
    run_map acceptPniInvite .acceptPni _ _ fun _ _ => rfl]
  rfl

end Snapshot

end SealedGroups
