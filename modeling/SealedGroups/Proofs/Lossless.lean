import SealedGroups.Proofs.Detour
import SealedGroups.Proofs.Superfluous
import SealedGroups.Samples

/-!
# Rebasing loses nothing where nothing conflicts

A change that can be applied to a group, and that nothing in the group stands against, can also be
applied after it has been rebased onto that very group, and leads to the same group up to the order
of the members (`apply_rebase_of_unopposed`). Most of what rebasing does to such a change is to drop
entries without an effect; the rest is that whoever is to be added and holds an invite accepts the
invite instead.

Unreadable invites are the exception. They are taken to name the member without an account, should
there be one, and are dropped then (`rebase_drops_unreadable_invite`).
-/

namespace SealedGroups

/-! ### Attributes -/

private theorem text_kept {new : Option Text} {old : String} :
    ((if new.any (·.value == old) then none else new).map (·.value)).getD old =
      (new.map (·.value)).getD old := by
  cases new with
  | none => rfl
  | some text =>
    by_cases same : text.value = old <;> simp [same]

private theorem announcements_kept {new old : Announcements} :
    (if (if new = old then Announcements.unknown else new).isSet then
        if new = old then Announcements.unknown else new
      else old) = if new.isSet then new else old := by
  by_cases same : new = old
  · rw [if_pos same, same, ite_self]
    rfl
  · rw [if_neg same]

private theorem orKeep_kept {new old : Access} :
    (if new = old then Access.unknown else new).orKeep old = new.orKeep old := by
  by_cases same : new = old
  · rw [if_pos same, same]
    unfold Access.orKeep
    rw [ite_self]
    rfl
  · rw [if_neg same]

/-- A right that is set to what it is not, is set. -/
private theorem isSet_of_kept {new old : Access}
    (set : (if new = old then Access.unknown else new).isSet = true) : new.isSet = true := by
  split at set
  · cases set
  · exact set

private theorem orKeep_of_not_kept {new old : Access}
    (unset : (if new = old then Access.unknown else new).isSet = false) : new.orKeep old = old := by
  rw [← orKeep_kept]
  exact if_neg (Bool.eq_false_iff.1 unset)

/-- Without any right, setting one is never superfluous. -/
private theorem isSet_kept_unknown {new : Access} :
    (if new = Access.unknown then Access.unknown else new).isSet = new.isSet := by
  split
  · rename_i same
    rw [same]
  · rfl

namespace Snapshot

/-- Leaving out the rights that are held already does not change which rights are held. -/
private theorem accessAfter_remainder (group : Snapshot) (change : Change) :
    group.accessAfter (change.remainder group) = group.accessAfter change := by
  unfold accessAfter
  by_cases kept : ((change.remainder group).attributesAccess.isSet
      || (change.remainder group).membersAccess.isSet
      || (change.remainder group).inviteLinkAccess.isSet) = true
  · have set : (change.attributesAccess.isSet || change.membersAccess.isSet
        || change.inviteLinkAccess.isSet) = true := by
      rw [Bool.or_eq_true, Bool.or_eq_true] at kept ⊢
      exact kept.imp (Or.imp isSet_of_kept isSet_of_kept) isSet_of_kept
    rw [if_pos kept, if_pos set]
    simp only [Change.remainder, orKeep_kept]
  · -- no right is left to be set, as the group holds those of the change already
    rw [if_neg kept]
    rw [Bool.not_eq_true, Bool.or_eq_false_iff, Bool.or_eq_false_iff] at kept
    obtain ⟨⟨attributes, members⟩, inviteLink⟩ := kept
    cases held : group.access with
    | none =>
      simp only [Change.remainder, held, Option.getD_none, isSet_kept_unknown]
        at attributes members inviteLink
      rw [attributes, members, inviteLink]
      rfl
    | some rules =>
      simp only [Change.remainder, held, Option.getD_some] at attributes members inviteLink
      simp only [Option.getD_some, orKeep_of_not_kept attributes, orKeep_of_not_kept members,
        orKeep_of_not_kept inviteLink, ite_self]

/-- Leaving out what says nothing new does not change the attributes. -/
theorem setAttributes_remainder {group : Snapshot} (timed : group.timer.isSome) (change : Change) :
    group.setAttributes (change.remainder group) = group.setAttributes change := by
  have title : ((change.remainder group).title.map (·.value)).getD group.title =
      (change.title.map (·.value)).getD group.title := text_kept
  have avatar : ((change.remainder group).avatar.map (·.value)).getD group.avatar =
      (change.avatar.map (·.value)).getD group.avatar := text_kept
  have description : ((change.remainder group).description.map (·.value)).getD group.description =
      (change.description.map (·.value)).getD group.description := text_kept
  have announcements :
      (if (change.remainder group).announcements.isSet then (change.remainder group).announcements
        else group.announcements) =
      if change.announcements.isSet then change.announcements else group.announcements :=
    announcements_kept
  have timer : (change.remainder group).timer.orElse (fun _ => group.timer) =
      change.timer.orElse fun _ => group.timer := by
    obtain ⟨old, there⟩ := Option.isSome_iff_exists.1 timed
    have duration : group.duration = old.duration := by rw [duration, there]; rfl
    cases new : change.timer with
    | none => simp [Change.remainder, new]
    | some timer =>
      by_cases same : timer.duration = old.duration
      · -- a timer that the group has already is dropped, and setting it makes no difference
        have same : timer = old := congrArg Timer.mk same
        simp [Change.remainder, new, duration, there, same]
      · simp [Change.remainder, new, duration, same]
  unfold setAttributes
  rw [title, avatar, timer, accessAfter_remainder, description, announcements]
  rfl

end Snapshot

/-! ### The steps that are left -/

namespace Change

/-- What a change does between its adds and its attributes. -/
def early (change : Change) : List Step :=
  change.removedMembers.map .remove
    ++ change.roleChanges.map .changeRole
    ++ change.profileKeyChanges.map .changeProfileKey
    ++ change.newInvites.map .invite
    ++ change.revokedInvites.map .revoke
    ++ change.acceptedInvites.map .accept

/-- What a change does after its attributes. -/
def late (change : Change) : List Step :=
  change.newRequests.map .request
    ++ change.refusedRequests.map .refuse
    ++ change.approvedRequests.map (.approve change.revision)
    ++ change.newBans.map .ban
    ++ change.liftedBans.map .liftBan
    ++ change.acceptedPniInvites.map .acceptPni

open Snapshot (Detour)

theorem steps_eq_direct (change : Change) :
    change.steps = Detour.direct change.newMembers change.early change.late change := by
  simp only [steps, Detour.direct, early, late, List.append_assoc, List.cons_append,
    List.nil_append]

variable {group : Snapshot} {change : Change}

theorem filter_steps (strangers : ∀ member ∈ change.newMembers, member.aci ∉ group.memberAcis) :
    change.steps.filter (·.survives group) =
      Detour.direct change.newMembers (change.early.filter (·.survives group))
        (change.late.filter (·.survives group)) change := by
  -- nobody who is added is a member yet, so no addition is in vain
  have adds : (change.newMembers.map Step.add).filter (·.survives group) =
      change.newMembers.map .add := by
    apply List.filter_eq_self.2
    intro step mem
    obtain ⟨member, hmember, rfl⟩ := List.mem_map.1 mem
    have stranger := Bool.eq_false_iff.2 (mt Snapshot.hasMember_iff.1 (strangers member hmember))
    rw [Step.survives, stranger]
    rfl
  rw [steps_eq_direct, Detour.direct, List.filter_append, List.filter_append, adds,
    List.filter_cons_of_pos rfl]

/-- Where nobody asks to be let in who is invited, rebasing keeps what survives, and those who hold
an invite accept it instead of being added. -/
theorem steps_remainder
    (strangers : ∀ member ∈ change.newMembers, member.aci ∉ group.memberAcis)
    (uninvited : ∀ request ∈ change.newRequests, group.hasInvitee request.aci = false) :
    (change.remainder group).steps =
      Detour.round change.newMembers (fun member => group.hasInvitee member.aci)
        (change.early.filter (·.survives group)) (change.late.filter (·.survives group))
        (change.remainder group) := by
  -- for the same reason the invites alone decide who is added and who accepts
  have stays : change.newMembers.filter group.stillToAdd =
      change.newMembers.filter fun member => !group.hasInvitee member.aci := by
    apply List.filter_congr
    intro member mem
    have stranger := Bool.eq_false_iff.2 (mt Snapshot.hasMember_iff.1 (strangers member mem))
    rw [Snapshot.stillToAdd, stranger]
    rfl
  have moves : change.newMembers.filter group.acceptsInstead =
      change.newMembers.filter fun member => group.hasInvitee member.aci := by
    apply List.filter_congr
    intro member mem
    have stranger := Bool.eq_false_iff.2 (mt Snapshot.hasMember_iff.1 (strangers member mem))
    rw [Snapshot.acceptsInstead, stranger]
    rfl
  have asking : change.newRequests.filter group.acceptsInsteadOfAsking = [] := by
    apply List.filter_eq_nil_iff.2
    intro request mem accepts
    rw [Snapshot.acceptsInsteadOfAsking, uninvited request mem, Bool.and_false] at accepts
    cases accepts
  -- those who accept instead do so behind the early steps, before attributes are set
  have early : (change.remainder group).early = change.early.filter (·.survives group)
      ++ (change.newMembers.filter fun member => group.hasInvitee member.aci).reverse.map
        .accept := by
    simp only [Change.early, remainder, moves, asking, List.filter_append, List.filter_map,
      List.map_append, List.map_nil, List.reverse_nil, List.append_nil, List.append_assoc]
    rfl
  have late : (change.remainder group).late = change.late.filter (·.survives group) := by
    simp only [Change.late, remainder, List.filter_append, List.filter_map]
    rfl
  have adds : (change.remainder group).newMembers =
      change.newMembers.filter fun member => !group.hasInvitee member.aci := stays
  rw [steps_eq_direct, Detour.direct, Detour.round, adds, early, late, List.append_assoc]

end Change

namespace Snapshot

-- what the steps are one by one is of no interest any more
attribute [local irreducible] Change.steps

/-- What is dropped and who comes in later gives the invitees among those added a detour. -/
theorem detour_of_unopposed {group : Snapshot} {change : Change} (once : group.OneStanding)
    (free : change.Unopposed group) :
    Detour group change.newMembers (fun member => group.hasInvitee member.aci)
      (change.early.filter (·.survives group) ++ change.late.filter (·.survives group))
      (group.sealings ++ change.sealings) := by
  have names := free.names
  rw [Change.NamesOnce, change.steps_eq_direct, List.pairwise_append] at names
  obtain ⟨among, -, across⟩ := names
  have added : ∀ member ∈ change.newMembers, .add member ∈ change.steps := by
    intro member mem
    rw [change.steps_eq_direct]
    exact List.mem_append_left _ (List.mem_map_of_mem mem)
  have readable : ∀ member ∈ change.newMembers, member.aci ≠ [] := by
    intro member mem empty
    exact free.named _ (added member mem) (List.mem_singleton.2 empty.symm)
  have other : ∀ step ∈ change.early.filter (·.survives group)
      ++ change.late.filter (·.survives group),
      step ∈ change.early ++ .setAttributes change :: change.late := by
    intro step mem
    rcases List.mem_append.1 mem with early | late
    · exact List.mem_append_left _ (List.mem_of_mem_filter early)
    · exact List.mem_append_right _ (List.mem_cons_of_mem _ (List.mem_of_mem_filter late))
  have ofChange : ∀ step ∈ change.early.filter (·.survives group)
      ++ change.late.filter (·.survives group), step ∈ change.steps := by
    intro step mem
    rw [change.steps_eq_direct]
    exact List.mem_append_right _ (other step mem)
  refine
    { once
      coherent := free.coherent
      known := List.subset_append_left _ _
      sealed := ?sealed
      readable
      fresh := ?fresh
      invited := fun member _ invited => (hasInvitee_iff.1 invited).2
      named := fun step mem => free.named step (ofChange step mem)
      apart := ?apart }
  case sealed =>
    intro step mem
    exact List.Subset.trans (Change.sealings_of_mem_steps (ofChange step mem))
      (List.subset_append_right _ _)
  case fresh =>
    -- two additions of one account would not be apart
    have distinct : (change.newMembers.map (·.aci)).Nodup := by
      refine List.pairwise_map.2 ((List.pairwise_map.1 among).imp_of_mem ?_)
      intro a b ha hb compatible same
      have apart := compatible.apart rfl
      exact apart.1 _ List.mem_cons_self (readable a ha) (List.mem_singleton.2 same)
    refine List.nodup_append.2 ⟨once.members, distinct, ?_⟩
    rintro id member _ new rfl
    obtain ⟨added, hadded, rfl⟩ := List.mem_map.1 new
    exact free.added_new added hadded member
  case apart =>
    intro step mem member hmember _
    have compatible := across _ (List.mem_map_of_mem hmember) step (other step mem)
    exact (compatible.apart rfl).1 _ List.mem_cons_self (readable member hmember)

/-- What rebasing leaves of a change that nothing stands against does the same as the change, up to
the order of the members. -/
theorem after_remainder {group : Snapshot} {change : Change} (once : group.OneStanding)
    (timed : group.timer.isSome) (free : change.Unopposed group)
    (readable : [] ∈ group.memberAcis → ∀ invite ∈ change.newInvites, invite.invitee ≠ [])
    (admits : group.admits change.steps) :
    group.admits (change.remainder group).steps
      ∧ (group.after (change.remainder group).steps).members.Perm (group.after change.steps).members
      ∧ { group.after (change.remainder group).steps with
          members := (group.after change.steps).members } = group.after change.steps := by
  have uninvited : ∀ request ∈ change.newRequests, group.hasInvitee request.aci = false := by
    intro request mem
    apply Bool.eq_false_iff.2
    intro invited
    obtain ⟨named, there⟩ := hasInvitee_iff.1 invited
    exact free.asking_new request mem (mem_identities.2 (Or.inr (Or.inl ⟨there, named⟩)))
  -- only the additions of invited people go another way, and they arrive all the same
  have detour := detour_of_unopposed once free
  obtain ⟨survivorsAdmit, same⟩ := after_survivors once free readable admits
  rw [Change.filter_steps free.added_new] at survivorsAdmit same
  have left := Change.steps_remainder free.added_new uninvited
  obtain ⟨members, invites, requests, bans⟩ := detour.after_round change (change.remainder group)
  rw [← left, same] at members invites requests bans
  -- the attributes are compared on groups that have nothing else
  have bare : (group.after (change.remainder group).steps).bare = (group.after change.steps).bare :=
    calc (group.after (change.remainder group).steps).bare
        = group.bare.setAttributes (change.remainder group) := bare_after_steps _ _
      _ = (group.setAttributes (change.remainder group)).bare := rfl
      _ = (group.setAttributes change).bare := by rw [setAttributes_remainder timed]
      _ = group.bare.setAttributes change := rfl
      _ = (group.after change.steps).bare := (bare_after_steps _ _).symm
  refine ⟨?_, members, ?_⟩
  · rw [left]
    exact detour.admits_round change _ survivorsAdmit
  · calc { group.after (change.remainder group).steps with
            members := (group.after change.steps).members }
        = { (group.after (change.remainder group).steps).bare with
            members := (group.after change.steps).members
            invites := (group.after (change.remainder group).steps).invites
            requests := (group.after (change.remainder group).steps).requests
            bans := (group.after (change.remainder group).steps).bans } := rfl
      _ = group.after change.steps := by
        rw [bare, invites, requests, bans]
        rfl

/-- A change that nothing in the group stands against can be rebased onto the group, and then still
does the same, up to the order of the members. -/
theorem apply_rebase_of_unopposed {group result : Snapshot} {change : Change}
    (once : group.OneStanding) (timed : group.timer.isSome) (free : change.Unopposed group)
    (readable : [] ∈ group.memberAcis → ∀ invite ∈ change.newInvites, invite.invitee ≠ [])
    (applied : group.apply change = .ok result) :
    ∃ result', group.apply (change.rebase group) = .ok result'
      ∧ result'.members.Perm result.members
      ∧ { result' with members := result.members } = result := by
  obtain ⟨admits, rfl⟩ := apply_eq_ok_iff.1 applied
  -- the revision is set first, and no part of what is said
  have once : (group.atRevision change.revision).OneStanding :=
    ⟨once.identities, once.ciphertexts, once.banned⟩
  have free : change.Unopposed (group.atRevision change.revision) := { free with }
  obtain ⟨leftAdmit, same⟩ := after_remainder once timed free readable admits
  rw [Change.remainder_atRevision] at leftAdmit same
  rw [Change.rebase_eq_remainder]
  exact ⟨_, apply_eq_ok_iff.2 ⟨leftAdmit, rfl⟩, same⟩

open Sample in
/-- Two invitees are added, and many entries say what is so already. -/
theorem apply_rebase_of_unopposed_sample :
    let group : Snapshot := {
      title := "old"
      timer := some ⟨60⟩
      access := some { members := .administrator }
      members := [administrator 1, member 2, member 3, member 4]
      invites := [invite 5, invite 6, invite 7, pniInvite 8]
      requests := [request 9]
      bans := [ban 10 0] }
    let change : Change := {
      revision := 1
      newMembers := [member 5, member 11, member 6]
      removedMembers := [aci 4]
      roleChanges := [promotion 1, promotion 3]
      profileKeyChanges := [member 2, memberWithProfileKey 3 [1]]
      newInvites := [invite 12]
      revokedInvites := [revocation 13]
      acceptedInvites := [member 7]
      title := some ⟨"old"⟩
      timer := some ⟨60⟩
      attributesAccess := .member
      membersAccess := .administrator
      newRequests := [request 14]
      refusedRequests := [aci 15]
      approvedRequests := [approval 9, approval 16]
      linkPassword := [1]
      newBans := [ban 10 1]
      liftedBans := [ban 17 0]
      acceptedPniInvites := [memberByPni 18 8] }
    ∃ result result', group.apply change = .ok result
      ∧ group.apply (change.rebase group) = .ok result'
      ∧ result'.members.Perm result.members
      ∧ { result' with members := result.members } = result := by
  intro group change
  have once : group.OneStanding := by
    constructor <;> decide +kernel
  have free : change.Unopposed group := by
    constructor <;> decide +kernel
  have readable : [] ∈ group.memberAcis → ∀ invite ∈ change.newInvites, invite.invitee ≠ [] := by
    decide +kernel
  have accepted : (group.apply change).toOption.isSome = true := by decide +kernel
  cases applied : group.apply change with
  | error e => rw [applied] at accepted; cases accepted
  | ok result =>
    obtain ⟨result', rebased, same⟩ := apply_rebase_of_unopposed once rfl free readable applied
    exact ⟨result, result', rfl, rebased, same⟩

/-- An unreadable invite is dropped where the one member has no account either, though nothing else
stands against it. -/
theorem rebase_drops_unreadable_invite :
    let group : Snapshot := { timer := some ⟨60⟩, members := [{ role := .administrator }] }
    let change : Change := { revision := 1, newInvites := [{ role := .normal, ciphertext := [1] }] }
    group.OneStanding ∧ group.timer.isSome ∧ change.Unopposed group
      ∧ ∃ result result', group.apply change = .ok result
        ∧ group.apply (change.rebase group) = .ok result'
        ∧ { result' with members := result.members } ≠ result := by
  intro group change
  have once : group.OneStanding := by
    constructor <;> decide +kernel
  have free : change.Unopposed group := by
    constructor <;> decide +kernel
  refine ⟨once, rfl, free, { group with revision := 1, invites := change.newInvites },
    { group with revision := 1 }, ?_, ?_, ?_⟩
  · decide +kernel
  · decide +kernel
  · decide +kernel

end Snapshot

end SealedGroups
