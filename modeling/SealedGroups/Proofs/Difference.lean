import SealedGroups.Proofs.Difference.Invites
import SealedGroups.Proofs.Difference.Requests
import SealedGroups.Samples

/-!
# The change between two snapshots leads from one to the other

Applied to the earlier of two snapshots, the change that is inferred from both gives the later one,
up to the order of entries (`apply_between`).

The change is followed slot by slot. After each slot the lists are written down as they are then:
what is still from the earlier snapshot stands in front, what is new behind it. Only at the end are
they compared with the lists of the later snapshot, by the keys of the entries.
-/

namespace SealedGroups

namespace Change

variable {old new : Snapshot} {member : Member}

/-! ### Attributes -/

theorem newText_getD (first second : String) :
    ((newText first second).map (·.value)).getD first = second := by
  unfold newText
  split
  · assumption
  · rfl

theorem newAccess_orKeep {first second : Access} (h : first = second ∨ second.isSet = true) :
    (newAccess first second).orKeep first = second := by
  unfold newAccess
  by_cases same : first = second
  · rw [if_neg fun h => h.1 same, same]
    rfl
  · -- a right that differs is told, since the new one is not unknown
    have set := h.resolve_left same
    have known : second ≠ .unknown := by
      rintro rfl
      cases set
    rw [if_pos ⟨same, known⟩, Access.orKeep, if_pos set]

theorem newAccess_isSet {first second : Access} (h : first = second ∨ second.isSet = true) :
    (newAccess first second).isSet = true ↔ first ≠ second := by
  unfold newAccess
  by_cases same : first = second
  · rw [if_neg fun h => h.1 same]
    exact iff_of_false (by decide) (not_not_intro same)
  · have set := h.resolve_left same
    have known : second ≠ .unknown := by
      rintro rfl
      cases set
    rw [if_pos ⟨same, known⟩]
    exact iff_of_true set same

/-- Rights change exactly if one of the three is set. -/
theorem accessAfter_between (comparable : Comparable old new) {group : Snapshot}
    (access : group.access = old.access) : group.accessAfter (between old new) = new.access := by
  change (if (newAccess (old.access.getD {}).attributes (new.access.getD {}).attributes).isSet
      || (newAccess (old.access.getD {}).members (new.access.getD {}).members).isSet
      || (newAccess (old.access.getD {}).inviteLink (new.access.getD {}).inviteLink).isSet then
    some (AccessRules.mk
      ((newAccess _ (new.access.getD {}).attributes).orKeep (group.access.getD {}).attributes)
      ((newAccess _ (new.access.getD {}).members).orKeep (group.access.getD {}).members)
      ((newAccess _ (new.access.getD {}).inviteLink).orKeep (group.access.getD {}).inviteLink))
    else group.access) = new.access
  rw [access]
  rcases comparable.access with same | ⟨rules, given, follows⟩
  · -- the rules are the same, and nothing is told about them
    have unset : ∀ right, (newAccess right right).isSet = false := by
      intro right
      rw [Bool.eq_false_iff, Ne, newAccess_isSet (Or.inl rfl)]
      exact not_not_intro rfl
    rw [same, unset, unset, unset]
    rfl
  · -- each right is told or kept, and is the new one in both cases
    rw [given]
    change (if _ then some (AccessRules.mk
      ((newAccess (old.access.getD {}).attributes rules.attributes).orKeep _)
      ((newAccess (old.access.getD {}).members rules.members).orKeep _)
      ((newAccess (old.access.getD {}).inviteLink rules.inviteLink).orKeep _)) else _) = some rules
    rw [newAccess_orKeep follows.attributes, newAccess_orKeep follows.members,
      newAccess_orKeep follows.inviteLink]
    -- the rules are only written if one of the rights is told
    split
    · rfl
    · rename_i unset
      simp only [Bool.or_eq_true, not_or, Option.getD_some, newAccess_isSet follows.attributes,
        newAccess_isSet follows.members, newAccess_isSet follows.inviteLink, ne_eq,
        Classical.not_not] at unset
      obtain ⟨⟨attributes, members⟩, inviteLink⟩ := unset
      cases held : old.access with
      | some previous =>
        rw [held] at attributes members inviteLink
        change some (AccessRules.mk previous.attributes previous.members previous.inviteLink) = _
        rw [show previous.attributes = _ from attributes, show previous.members = _ from members,
          show previous.inviteLink = _ from inviteLink]
      | none =>
        -- no right would be set that is not set by the change
        exfalso
        have known := follows.some_set
        rw [← attributes, ← members, ← inviteLink, held] at known
        exact absurd known (by decide)

theorem timer_settled (comparable : Comparable old new) :
    ((between old new).timer.orElse fun _ => old.timer) = new.timer := by
  by_cases same : old.timer = new.timer
  · have unset : (between old new).timer = none := if_pos same
    rw [unset]
    exact same
  · have set : (between old new).timer = some (new.timer.getD {}) := if_neg same
    obtain ⟨timer, given⟩ := Option.isSome_iff_exists.1 (comparable.timer.resolve_left same)
    rw [set, given]
    rfl

theorem linkPassword_settled (comparable : Comparable old new) :
    (if (between old new).linkPassword.isEmpty then old.linkPassword
      else (between old new).linkPassword) = new.linkPassword := by
  by_cases same : old.linkPassword = new.linkPassword
  · have unset : (between old new).linkPassword = [] := if_pos same
    rw [unset]
    exact same
  · have set : (between old new).linkPassword = new.linkPassword := if_neg same
    have some : ¬ new.linkPassword.isEmpty = true := fun empty =>
      comparable.linkPassword.resolve_left same (List.isEmpty_iff.1 empty)
    rw [set, if_neg some]

theorem announcements_settled (comparable : Comparable old new) :
    (if (between old new).announcements.isSet then (between old new).announcements
      else old.announcements) = new.announcements := by
  by_cases same : old.announcements = new.announcements
  · have unset : (between old new).announcements = .unknown := if_neg fun h => h.1 same
    rw [unset]
    exact same
  · have known := comparable.announcements.resolve_left same
    have set : (between old new).announcements = new.announcements := if_pos ⟨same, known⟩
    rw [set, if_pos known]

/-- Setting the attributes settles them all. -/
theorem setAttributes_between (comparable : Comparable old new) (members : List Member)
    (invites : List Invite) (requests : List JoinRequest) (bans : List Ban) :
    ({ old with
        revision := new.revision, members, invites, requests, bans } : Snapshot).setAttributes
        (between old new) =
      { new with members, invites, requests, bans } := by
  simp only [Snapshot.setAttributes, Snapshot.mk.injEq, and_true, true_and]
  exact ⟨newText_getD _ _, newText_getD _ _, timer_settled comparable,
    accessAfter_between comparable rfl, linkPassword_settled comparable, newText_getD _ _,
    announcements_settled comparable⟩

/-! ### The members at the end -/

/-- All members of the later snapshot have come in, with their accounts and otherwise. -/
theorem members_settled (hold : old.WellFormed) (hnew : new.WellFormed)
    (comparable : Comparable old new) :
    (withProfileKeys old new ++ (between old new).acceptedInvites ++ approvedMembers old new
      ++ (between old new).acceptedPniInvites).Perm new.members := by
  have distinct : (new.members.map (·.aci)).Nodup := hnew.once.members
  -- the accounts agree, so it is enough that each of these is a member of the new group
  apply perm_of_keys distinct
  · refine List.Perm.trans ?_ ((members_perm old new).map (·.aci)).symm
    simp only [List.map_append, withProfileKeys_acis, remaining_acis, stayedMembers_acis]
    have stayed := filter_contains_perm hold.once.members hnew.once.members
    exact ((((stayed.append_right _).append_right _).append_right _).append_right _)
  · intro m mem
    simp only [List.mem_append] at mem
    rcases mem with ((mem | mem) | mem) | mem
    · exact mem_members_of_mem_withProfileKeys hold hnew comparable mem
    · exact List.mem_of_mem_filter mem
    · exact List.mem_of_mem_filter mem
    · exact List.mem_of_mem_filter mem

/-! ### The whole change -/

theorem run_setAttributes (comparable : Comparable old new) (members : List Member)
    (invites : List Invite) (requests : List JoinRequest) (bans : List Ban) :
    ({ old with revision := new.revision, members, invites, requests, bans } : Snapshot).run
        [.setAttributes (between old new)] =
      .ok { new with members, invites, requests, bans } :=
  congrArg Except.ok (setAttributes_between comparable members invites requests bans)

/-- Where the change leads to: what was there before stands in front. -/
def destination (old new : Snapshot) : Snapshot :=
  { new with
    members := withProfileKeys old new ++ (between old new).acceptedInvites
      ++ approvedMembers old new ++ (between old new).acceptedPniInvites
    invites := notPniAccepted old new ++ (between old new).newInvites
    requests := notApproved old new ++ (between old new).newRequests
    bans := notLifted old new ++ (between old new).newBans }

theorem run_between (hold : old.WellFormed) (hnew : new.WellFormed)
    (comparable : Comparable old new) :
    (old.atRevision new.revision).run (between old new).steps = .ok (destination old new) := by
  -- every slot is run from where the one before it has led
  have added := run_newMembers hold hnew
  have removed := Snapshot.run_then added (run_removedMembers hold rfl)
  have promoted := Snapshot.run_then removed (run_roleChanges hnew rfl)
  have keyed := Snapshot.run_then promoted (run_profileKeyChanges rfl)
  have invited := Snapshot.run_then keyed (run_newInvites hold hnew comparable rfl rfl)
  have revoked := Snapshot.run_then invited (run_revokedInvites hold rfl)
  have accepted := Snapshot.run_then revoked (run_acceptedInvites hold hnew rfl)
  have set := Snapshot.run_then accepted (run_setAttributes comparable _ _ _ _)
  have requested := Snapshot.run_then set (run_newRequests rfl)
  have refused := Snapshot.run_then requested (run_refusedRequests hold rfl)
  have approved := Snapshot.run_then refused (run_approvedRequests hold hnew comparable rfl)
  have banned := Snapshot.run_then approved (run_newBans hnew rfl)
  have lifted := Snapshot.run_then banned (run_liftedBans hold rfl)
  exact Snapshot.run_then lifted (run_acceptedPniInvites hold hnew rfl)

theorem destination_same (hold : old.WellFormed) (hnew : new.WellFormed)
    (comparable : Comparable old new) : (destination old new).SameUpToOrder new where
  bare := rfl
  members := members_settled hold hnew comparable
  invites := invites_perm hold hnew comparable
  requests := requests_perm hold hnew
  bans := bans_perm hold hnew comparable

end Change

namespace Snapshot

/-- The change between two snapshots applies to the first, and leads to the second up to the order
of entries. -/
theorem apply_between {old new : Snapshot} (hold : old.WellFormed) (hnew : new.WellFormed)
    (comparable : Comparable old new) :
    ∃ result, old.apply (Change.between old new) = .ok result ∧ result.SameUpToOrder new := by
  refine ⟨Change.destination old new, ?_, Change.destination_same hold hnew comparable⟩
  rw [apply_eq_run]
  exact Change.run_between hold hnew comparable

open Sample in
/-- Someone moves in every way there is. -/
theorem apply_between_sample :
    let old : Snapshot := {
      members := [administrator 1, member 2, member 3]
      invites := [invite 4, pniInvite 5, invite 6, invite 7]
      requests := [request 8, request 9, request 10]
      bans := [ban 11 0, ban 13 0] }
    let new : Snapshot := {
      title := "new"
      access := some { members := .administrator }
      revision := 1
      members := [{ member 8 with joinedAt := 1 }, { administrator 3 with profileKey := [1] },
        administrator 1, member 4, memberByPni 12 5, member 14]
      invites := [invite 15, invite 7]
      requests := [request 16, { request 10 with timestamp := 1 }]
      bans := [ban 17 0, ban 13 0] }
    ∃ result, old.apply (Change.between old new) = .ok result ∧ result.SameUpToOrder new := by
  intro old new
  have once_old : old.OneStanding := by
    constructor <;> decide +kernel
  have once_new : new.OneStanding := by
    constructor <;> decide +kernel
  have hold : old.WellFormed := by
    refine ⟨once_old, ?_, ?_, ?_, ?_, ?_, ?_⟩ <;> decide +kernel
  have hnew : new.WellFormed := by
    refine ⟨once_new, ?_, ?_, ?_, ?_, ?_, ?_⟩ <;> decide +kernel
  have access : old.access = new.access ∨
      ∃ rules, new.access = some rules ∧ rules.CanFollow old.access := by
    refine Or.inr ⟨{ members := .administrator }, rfl, ?_⟩
    constructor <;> decide
  have comparable : Comparable old new := by
    refine ⟨?_, ?_, ?_, ?_, ?_, access, ?_, ?_⟩ <;> decide +kernel
  exact apply_between hold hnew comparable

end Snapshot

end SealedGroups
