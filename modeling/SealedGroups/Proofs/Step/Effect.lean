import SealedGroups.Proofs.FirstMatch
import SealedGroups.Proofs.Step.Basic

/-!
# When a step can be performed, and what it does

Whether a step can be performed (`Step.ready`) is told apart from what it does (`Step.effect`). The
effect acts on every list of the group on its own: invites, requests and bans develop without a look
at the other lists, members look at the requests they come from.

The main statement is `apply_eq_ok_iff`: a change applies exactly if each of its steps is ready when
its turn comes (`admits`), and then leads to what its steps do one after the other (`after`).
-/

namespace SealedGroups

namespace Snapshot

/-- The accounts of the members. -/
def memberAcis (group : Snapshot) : List Bytes :=
  group.members.map (·.aci)

/-- The identities that are invited; unreadable ones are empty. -/
def invitees (group : Snapshot) : List Bytes :=
  group.invites.map (·.invitee)

/-- The ciphertexts by which the server knows the invites. -/
def ciphertexts (group : Snapshot) : List Bytes :=
  group.invites.map (·.ciphertext)

/-- The accounts that ask to be let in. -/
def requesters (group : Snapshot) : List Bytes :=
  group.requests.map (·.aci)

/-- The identities on the ban list. -/
def banned (group : Snapshot) : List Bytes :=
  group.bans.map (·.serviceId)

end Snapshot

/-- The role that an approval gives. -/
def Approval.granted (entry : Approval) : Role :=
  if entry.role = .unknown then .normal else entry.role

/-- The member that an approved request becomes. -/
def Approval.toMember (entry : Approval) (revision : UInt32) (request : JoinRequest) : Member where
  aci := request.aci
  role := entry.granted
  profileKey := request.profileKey
  joinedAt := revision

namespace Step

/-- Whether the group has whom the step is about, and nothing stands against the step. -/
def ready (group : Snapshot) : Step → Prop
  | .remove aci => aci ∈ group.memberAcis
  | .changeRole entry => entry.role.isHeld ∧ entry.aci ∈ group.memberAcis
  | .changeProfileKey entry => entry.aci ∈ group.memberAcis
  | .invite entry => entry.invitee ≠ [] → entry.invitee ∉ group.memberAcis
  | .accept member => member.aci ∈ group.invitees
  | .approve _ entry => entry.granted.isHeld
  | .acceptPni member => member.pni ∈ group.invitees
  | _ => True

/-- The members after a step. Whoever is approved is looked up among the requests. -/
def onMembers (requests : List JoinRequest) (members : List Member) : Step → List Member
  | .add member => Snapshot.placeMember members member
  | .remove aci => members.eraseP (·.aci == aci)
  | .changeRole entry => modifyFirst (·.aci == entry.aci) ({ · with role := entry.role }) members
  | .changeProfileKey entry =>
    modifyFirst (·.aci == entry.aci) ({ · with profileKey := entry.profileKey }) members
  | .accept member => members ++ [member]
  | .approve revision entry =>
    members ++ ((requests.find? (·.aci == entry.aci)).map (entry.toMember revision)).toList
  | .acceptPni member => members ++ [member]
  | _ => members

/-- The invites after a step. -/
def onInvites (invites : List Invite) : Step → List Invite
  | .add member => invites.filter (member.aci != ·.invitee)
  | .invite entry =>
    if invites.any (·.ciphertext == entry.ciphertext) then invites else invites ++ [entry]
  | .revoke entry => invites.eraseP (·.ciphertext == entry.ciphertext)
  | .accept member => invites.eraseP (·.invitee == member.aci)
  | .acceptPni member => invites.eraseP (·.invitee == member.pni)
  | _ => invites

/-- The requests after a step. -/
def onRequests (requests : List JoinRequest) : Step → List JoinRequest
  | .add member => requests.filter (member.aci != ·.aci)
  | .request entry => requests ++ [entry]
  | .refuse aci => requests.eraseP (·.aci == aci)
  | .approve _ entry => requests.eraseP (·.aci == entry.aci)
  | _ => requests

/-- The bans after a step. -/
def onBans (bans : List Ban) : Step → List Ban
  | .ban entry => if bans.any (·.serviceId == entry.serviceId) then bans else bans ++ [entry]
  | .liftBan entry => bans.eraseP (·.serviceId == entry.serviceId)
  | _ => bans

/-- The group after a step, its lists apart. -/
def onAttributes (group : Snapshot) : Step → Snapshot
  | .setAttributes change => group.setAttributes change
  | _ => group

/-- The group after a step. -/
def effect (group : Snapshot) (step : Step) : Snapshot :=
  { step.onAttributes group with
    members := step.onMembers group.requests group.members
    invites := step.onInvites group.invites
    requests := step.onRequests group.requests
    bans := step.onBans group.bans }

end Step

namespace Snapshot

private theorem outcome_or_fail {α : Type} {c : Prop} [Decidable c] {a b : α} {e : ApplyError} :
    (if c then pure a else .fail e : Noted ApplyError α).outcome = .ok b ↔ c ∧ a = b := by
  split <;> simp [*]

private theorem outcome_or_warn {α : Type} {c : Prop} [Decidable c] {a b r : α}
    {message : String} :
    (if c then pure a else do .warn message; return b : Noted ApplyError α).outcome = .ok r ↔
      (if c then a else b) = r := by
  split
  · simp
  · exact (Except.ok.injEq b r).to_iff

/-- A step can be performed exactly if it is ready, and then has its effect. -/
theorem perform_eq_ok_iff {group result : Snapshot} {step : Step} :
    group.perform step = .ok result ↔ step.ready group ∧ step.effect group = result := by
  cases step with
  | add member =>
    simp [perform, addMembers_eq, Step.ready, Step.effect, Step.onAttributes, Step.onMembers,
      Step.onInvites, Step.onRequests, Step.onBans, bne]
  | remove aci =>
    exact outcome_or_fail.trans (and_congr_left' (any_key_iff))
  | changeRole entry =>
    -- an entry with a role that nobody can hold is refused before the member is looked for
    by_cases held : entry.role.isHeld
    · simp only [perform, changeRole, held, if_true]
      refine outcome_or_fail.trans (and_congr_left' ?_)
      simp only [Step.ready, held, true_and]
      exact any_key_iff
    · simp [perform, changeRole, held, Step.ready]
  | changeProfileKey entry =>
    exact outcome_or_fail.trans (and_congr_left' (any_key_iff))
  | invite entry =>
    -- whoever is a member is not invited, unless they have no name
    have known : (!entry.invitee.isEmpty && group.members.any (·.aci == entry.invitee)) = true ↔
        ¬ Step.ready group (.invite entry) := by
      rw [Bool.and_eq_true, any_key_iff]
      simp [Step.ready, memberAcis]
    change (addInvite group entry).outcome = _ ↔ _
    unfold addInvite
    by_cases h : Step.ready group (.invite entry)
    · rw [if_neg fun hk => known.1 hk h]
      simp only [h, true_and, Step.effect, Step.onInvites]
      split
      · exact (Except.ok.injEq _ _).to_iff
      · exact (Except.ok.injEq _ _).to_iff
    · rw [if_pos (known.2 h)]
      simp [h]
  | revoke entry =>
    refine outcome_or_warn.trans ?_
    split
    · simp only [Step.ready, true_and]; rfl
    · -- without such an invite there is only a warning, and nothing to take out
      rename_i h
      simp only [Step.ready, true_and, Step.effect, Step.onInvites, eraseP_of_any_eq_false h]; rfl
  | accept member =>
    exact outcome_or_fail.trans (and_congr_left' (any_key_iff))
  | setAttributes change =>
    simp only [perform, Step.ready, Step.effect, Except.ok.injEq, true_and]
    rfl
  | request entry =>
    simp only [perform, Step.ready, Step.effect, Except.ok.injEq, true_and]
    rfl
  | refuse aci =>
    refine outcome_or_warn.trans ?_
    split
    · simp only [Step.ready, true_and]; rfl
    · rename_i h
      simp only [Step.ready, true_and, Step.effect, Step.onRequests, eraseP_of_any_eq_false h]; rfl
  | approve revision entry =>
    change
      ((if entry.granted.isHeld then _ else .fail _ : Noted ApplyError Snapshot).outcome = _) ↔ _
    by_cases held : entry.granted.isHeld
    · simp only [held, if_true, Step.ready, true_and]
      -- an approval without a request is no error, and lets nobody in
      cases found : group.requests.find? (·.aci == entry.aci) with
      | some request =>
        simp only [Step.effect, Step.onMembers, Step.onRequests, found]
        exact (Except.ok.injEq _ _).to_iff
      | none =>
        have none : group.requests.eraseP (·.aci == entry.aci) = group.requests := by
          exact List.eraseP_of_forall_not (List.find?_eq_none.1 found)
        simp only [Step.effect, Step.onMembers, Step.onRequests, found, none, Option.map_none,
          Option.toList_none, List.append_nil]
        exact (Except.ok.injEq _ _).to_iff
    · simp [held, Step.ready]
  | ban entry =>
    simp only [perform, addBan, Step.ready, true_and, Step.effect, Step.onBans]
    split
    · exact (Except.ok.injEq _ _).to_iff
    · exact (Except.ok.injEq _ _).to_iff
  | liftBan entry =>
    refine outcome_or_warn.trans ?_
    split
    · simp only [Step.ready, true_and]; rfl
    · rename_i h
      simp only [Step.ready, true_and, Step.effect, Step.onBans, eraseP_of_any_eq_false h]; rfl
  | acceptPni member =>
    exact outcome_or_fail.trans (and_congr_left' (any_key_iff))

/-! ### Keys after a step -/

theorem map_placeMember (members : List Member) (member : Member) :
    (placeMember members member).map (·.aci) =
      if member.aci ∈ members.map (·.aci) then members.map (·.aci)
      else members.map (·.aci) ++ [member.aci] := by
  simp only [placeMember, any_key_iff]
  split
  · -- who is a member already gets the new entry in the old place
    apply map_modifyFirst
    intro old fit
    exact (beq_iff_eq.1 fit).symm
  · rw [List.map_append]
    rfl

/-- Whoever is approved is among the requests, or else nobody is admitted. -/
theorem map_find_toMember (requests : List JoinRequest) (revision : UInt32) (entry : Approval) :
    ((requests.find? (·.aci == entry.aci)).map (entry.toMember revision)).toList.map (·.aci) =
      if entry.aci ∈ requests.map (·.aci) then [entry.aci] else [] := by
  cases found : requests.find? (·.aci == entry.aci) with
  | none =>
    have absent : entry.aci ∉ requests.map (·.aci) := by
      rintro present
      obtain ⟨request, mem, same⟩ := List.mem_map.1 present
      exact List.find?_eq_none.1 found request mem (beq_iff_eq.2 same)
    rw [if_neg absent]
    rfl
  | some request =>
    have same : request.aci = entry.aci := by simpa using List.find?_some found
    have present : entry.aci ∈ requests.map (·.aci) :=
      List.mem_map.2 ⟨request, List.mem_of_find?_eq_some found, same⟩
    rw [if_pos present, ← same]
    rfl

end Snapshot

namespace Step

/-- The accounts of the members after a step, from the accounts alone. -/
def onAcis (requesters acis : List Bytes) : Step → List Bytes
  | .add member => if member.aci ∈ acis then acis else acis ++ [member.aci]
  | .remove aci => acis.erase aci
  | .accept member => acis ++ [member.aci]
  | .approve _ entry => acis ++ if entry.aci ∈ requesters then [entry.aci] else []
  | .acceptPni member => acis ++ [member.aci]
  | _ => acis

/-- The accounts that ask to be let in after a step, from the accounts alone. -/
def onRequesters (requesters : List Bytes) : Step → List Bytes
  | .add member => requesters.filter (member.aci != ·)
  | .request entry => requesters ++ [entry.aci]
  | .refuse aci => requesters.erase aci
  | .approve _ entry => requesters.erase entry.aci
  | _ => requesters

end Step

namespace Snapshot

theorem memberAcis_effect (group : Snapshot) (step : Step) :
    (step.effect group).memberAcis = step.onAcis group.requesters group.memberAcis := by
  cases step with
  | add member => exact map_placeMember _ _
  | remove aci => exact map_eraseP_key _ _ _
  | changeRole entry =>
    apply map_modifyFirst
    intro member _
    rfl
  | changeProfileKey entry =>
    apply map_modifyFirst
    intro member _
    rfl
  | accept member => exact List.map_append
  | approve revision entry =>
    -- a member comes of the request, if there is one
    refine List.map_append.trans ?_
    rw [map_find_toMember]
    rfl
  | acceptPni member => exact List.map_append
  | _ => rfl

theorem requesters_effect (group : Snapshot) (step : Step) :
    (step.effect group).requesters = step.onRequesters group.requesters := by
  cases step with
  | add member =>
    simp only [requesters, Step.effect, Step.onRequests, Step.onRequesters, List.filter_map]
    rfl
  | request entry => exact List.map_append
  | refuse aci => exact map_eraseP_key _ _ _
  | approve revision entry => exact map_eraseP_key _ _ _
  | _ => rfl

/-- Only an invite brings an invite. -/
theorem mem_invites_effect {group : Snapshot} {step : Step} {invite : Invite}
    (h : invite ∈ (step.effect group).invites) :
    invite ∈ group.invites ∨ step = .invite invite := by
  cases step with
  | add member => exact Or.inl (List.mem_of_mem_filter h)
  | revoke entry => exact Or.inl (List.mem_of_mem_eraseP h)
  | accept member => exact Or.inl (List.mem_of_mem_eraseP h)
  | acceptPni member => exact Or.inl (List.mem_of_mem_eraseP h)
  | invite entry =>
    simp only [Step.effect, Step.onInvites] at h
    split at h
    · exact Or.inl h
    · rcases List.mem_append.1 h with h | h
      · exact Or.inl h
      · exact Or.inr (by rw [List.mem_singleton.1 h])
  | _ => exact Or.inl h

theorem mem_invitees_effect {group : Snapshot} {step : Step} {id : Bytes}
    (h : id ∈ (step.effect group).invitees) :
    id ∈ group.invitees ∨ ∃ invite, step = .invite invite ∧ invite.invitee = id := by
  obtain ⟨invite, mem, rfl⟩ := List.mem_map.1 h
  rcases mem_invites_effect mem with old | made
  · exact Or.inl (List.mem_map_of_mem old)
  · exact Or.inr ⟨invite, made, rfl⟩

/-! ### Runs of steps -/

/-- Whether every step is ready when its turn comes. -/
def admits (group : Snapshot) : List Step → Prop
  | [] => True
  | step :: rest => step.ready group ∧ (step.effect group).admits rest

/-- The group after steps, one after the other. -/
def after (group : Snapshot) (steps : List Step) : Snapshot :=
  steps.foldl Step.effect group

@[simp] theorem after_nil (group : Snapshot) : group.after [] = group := rfl

@[simp] theorem after_cons (group : Snapshot) (step : Step) (rest : List Step) :
    group.after (step :: rest) = (step.effect group).after rest := rfl

theorem after_append (group : Snapshot) (first rest : List Step) :
    group.after (first ++ rest) = (group.after first).after rest :=
  List.foldl_append

theorem admits_append {group : Snapshot} {first rest : List Step} :
    group.admits (first ++ rest) ↔ group.admits first ∧ (group.after first).admits rest := by
  induction first generalizing group with
  | nil => exact ⟨fun h => ⟨trivial, h⟩, fun h => h.2⟩
  | cons step first ih => exact (and_congr_right' ih).trans and_assoc.symm

theorem run_eq_ok_iff {group result : Snapshot} {steps : List Step} :
    group.run steps = .ok result ↔ group.admits steps ∧ group.after steps = result := by
  induction steps generalizing group with
  | nil => simp [run, admits, pure, Except.pure]
  | cons step rest ih =>
    simp only [run, List.foldlM_cons, admits, after_cons]
    cases performed : group.perform step with
    | ok next =>
      -- the rest is performed on what the step has left
      obtain ⟨ready, rfl⟩ := perform_eq_ok_iff.1 performed
      simp only [ready, true_and]
      exact ih
    | error e =>
      have notReady : ¬ step.ready group := fun ready => by
        rw [perform_eq_ok_iff.2 ⟨ready, rfl⟩] at performed
        cases performed
      simp [notReady, bind, Except.bind]

/-- A change applies exactly if every step is ready when its turn comes. -/
theorem apply_eq_ok_iff {group result : Snapshot} {change : Change} :
    group.apply change = .ok result ↔
      (group.atRevision change.revision).admits change.steps
        ∧ (group.atRevision change.revision).after change.steps = result := by
  rw [apply_eq_run, run_eq_ok_iff]

/-- What every step keeps, steps one after the other keep. -/
theorem after_keeps {P : Snapshot → Prop} {steps : List Step}
    (step_keeps : ∀ step ∈ steps, ∀ group, P group → P (step.effect group)) {group : Snapshot}
    (start : P group) : P (group.after steps) := by
  induction steps generalizing group with
  | nil => exact start
  | cons step rest ih =>
    exact ih (fun s hs => step_keeps s (List.mem_cons_of_mem _ hs))
      (step_keeps step List.mem_cons_self group start)

end Snapshot

end SealedGroups
