import SealedGroups.Proofs.Decisions
import SealedGroups.Proofs.Rebase
import SealedGroups.Samples

/-!
# What rebasing leaves of actions

Actions hide whom their entries are about, so a rebase goes by the plaintext change they came from
and edits them by position. This file says what comes out of it (`rebase_of_inStep`): every list of
the actions keeps the entries at the positions where the change has an entry that passes its test,
in their order. What was to be added or asked to be let in but accepts an invite instead stands
behind the accepted invites, each of the two lists in reverse, with the presentation it came with. A
value is cleared exactly if the change sets it to what the group has.

All that is asked of actions and change is that their lists have the same lengths; they need not say
the same.
-/

namespace SealedGroups

namespace Sealed.Actions

/-! ### The lists and values of actions -/

/-- A list of actions. -/
abbrev View (β : Type) (slot : ListSlot) := Listing edit β slot

namespace View

abbrev newMembers : View AddMember .newMembers :=
  ⟨(·.newMembers), fun actions newMembers => { actions with newMembers },
    fun _ _ => rfl, fun _ => rfl, fun _ _ _ => rfl, fun _ _ => rfl⟩

abbrev removedMembers : View Target .removedMembers :=
  ⟨(·.removedMembers), fun actions removedMembers => { actions with removedMembers },
    fun _ _ => rfl, fun _ => rfl, fun _ _ _ => rfl, fun _ _ => rfl⟩

abbrev roleChanges : View RoleGrant .roleChanges :=
  ⟨(·.roleChanges), fun actions roleChanges => { actions with roleChanges },
    fun _ _ => rfl, fun _ => rfl, fun _ _ _ => rfl, fun _ _ => rfl⟩

abbrev profileKeyChanges : View Identity .profileKeyChanges :=
  ⟨(·.profileKeyChanges), fun actions profileKeyChanges => { actions with profileKeyChanges },
    fun _ _ => rfl, fun _ => rfl, fun _ _ _ => rfl, fun _ _ => rfl⟩

abbrev newInvites : View AddInvite .newInvites :=
  ⟨(·.newInvites), fun actions newInvites => { actions with newInvites },
    fun _ _ => rfl, fun _ => rfl, fun _ _ _ => rfl, fun _ _ => rfl⟩

abbrev revokedInvites : View Target .revokedInvites :=
  ⟨(·.revokedInvites), fun actions revokedInvites => { actions with revokedInvites },
    fun _ _ => rfl, fun _ => rfl, fun _ _ _ => rfl, fun _ _ => rfl⟩

abbrev acceptedInvites : View Identity .acceptedInvites :=
  ⟨(·.acceptedInvites), fun actions acceptedInvites => { actions with acceptedInvites },
    fun _ _ => rfl, fun _ => rfl, fun _ _ _ => rfl, fun _ _ => rfl⟩

abbrev newRequests : View AddRequest .newRequests :=
  ⟨(·.newRequests), fun actions newRequests => { actions with newRequests },
    fun _ _ => rfl, fun _ => rfl, fun _ _ _ => rfl, fun _ _ => rfl⟩

abbrev refusedRequests : View Target .refusedRequests :=
  ⟨(·.refusedRequests), fun actions refusedRequests => { actions with refusedRequests },
    fun _ _ => rfl, fun _ => rfl, fun _ _ _ => rfl, fun _ _ => rfl⟩

abbrev approvedRequests : View RoleGrant .approvedRequests :=
  ⟨(·.approvedRequests), fun actions approvedRequests => { actions with approvedRequests },
    fun _ _ => rfl, fun _ => rfl, fun _ _ _ => rfl, fun _ _ => rfl⟩

abbrev newBans : View AddBan .newBans :=
  ⟨(·.newBans), fun actions newBans => { actions with newBans },
    fun _ _ => rfl, fun _ => rfl, fun _ _ _ => rfl, fun _ _ => rfl⟩

abbrev liftedBans : View Target .liftedBans :=
  ⟨(·.liftedBans), fun actions liftedBans => { actions with liftedBans },
    fun _ _ => rfl, fun _ => rfl, fun _ _ _ => rfl, fun _ _ => rfl⟩

abbrev acceptedPniInvites : View PniIdentity .acceptedPniInvites :=
  ⟨(·.acceptedPniInvites), fun actions acceptedPniInvites => { actions with acceptedPniInvites },
    fun _ _ => rfl, fun _ => rfl, fun _ _ _ => rfl, fun _ _ => rfl⟩

end View

/-- A value that actions may set, to look at and to replace. -/
structure ValueView (α : Type) (slot : ValueSlot) where
  get : Actions → Option α
  set : Actions → Option α → Actions
  set_get : ∀ actions, set actions (get actions) = actions
  clearValue_eq : ∀ actions, actions.clearValue slot = set actions none

namespace ValueView

abbrev title : ValueView Title .title :=
  ⟨(·.title), fun actions title => { actions with title }, fun _ => rfl, fun _ => rfl⟩

abbrev avatar : ValueView Avatar .avatar :=
  ⟨(·.avatar), fun actions avatar => { actions with avatar }, fun _ => rfl, fun _ => rfl⟩

abbrev timer : ValueView Sealed.Timer .timer :=
  ⟨(·.timer), fun actions timer => { actions with timer }, fun _ => rfl, fun _ => rfl⟩

abbrev attributesAccess : ValueView AttributesAccess .attributesAccess :=
  ⟨(·.attributesAccess), fun actions attributesAccess => { actions with attributesAccess },
    fun _ => rfl, fun _ => rfl⟩

abbrev membersAccess : ValueView MembersAccess .membersAccess :=
  ⟨(·.membersAccess), fun actions membersAccess => { actions with membersAccess },
    fun _ => rfl, fun _ => rfl⟩

abbrev inviteLinkAccess : ValueView InviteLinkAccess .inviteLinkAccess :=
  ⟨(·.inviteLinkAccess), fun actions inviteLinkAccess => { actions with inviteLinkAccess },
    fun _ => rfl, fun _ => rfl⟩

abbrev description : ValueView Description .description :=
  ⟨(·.description), fun actions description => { actions with description },
    fun _ => rfl, fun _ => rfl⟩

abbrev announcementsOnly : ValueView AnnouncementsOnly .announcements :=
  ⟨(·.announcementsOnly), fun actions announcementsOnly => { actions with announcementsOnly },
    fun _ => rfl, fun _ => rfl⟩

end ValueView

theorem carryOut_clearIf {α : Type} {slot : ValueSlot} (view : ValueView α slot)
    {superfluous : Bool} {actions : Actions} :
    Decision.carryOut edit actions (Decision.clearIf slot superfluous) =
      view.set actions (if superfluous then none else view.get actions) := by
  cases superfluous with
  | true => exact view.clearValue_eq actions
  | false => exact (view.set_get actions).symm

/-! ### Entries that move -/

/-- The actions with other accepted invites. -/
abbrev accepting (actions : Actions) (acceptedInvites : List Identity) : Actions :=
  { actions with acceptedInvites }

/-- Puts those who pass a test behind the accepted invites. -/
private theorem foldr_move {α β : Type} (moves : α → Bool) (become : β → Identity)
    (pairs : List (α × β)) (actions : Actions) :
    pairs.foldr (fun pair actions =>
        if moves pair.1 then actions.accepting (actions.acceptedInvites ++ [become pair.2])
        else actions) actions =
      actions.accepting (actions.acceptedInvites
        ++ (((pairs.filter (moves ·.1)).map (·.2)).map become).reverse) := by
  -- the fold goes from the right, so the last entry that moves is accepted first
  induction pairs with
  | nil => simp
  | cons pair rest ih =>
    rw [List.foldr_cons, ih]
    by_cases moved : moves pair.1 = true
    · rw [if_pos moved]
      simp [moved]
    · rw [if_neg moved]
      simp [moved]

/-- Decisions that leave an entry, drop it or move it behind the accepted invites: the entries that
stay are left, and those that move come behind the accepted invites in reverse. -/
theorem carryOut_move {α β : Type} {slot : ListSlot} (view : View β slot) (move : Nat → Edit)
    (view_accepting : ∀ actions entries ids,
      (view.set actions entries).accepting ids = view.set (actions.accepting ids) entries)
    (view_accepted : ∀ actions entries,
      (view.set actions entries).acceptedInvites = actions.acceptedInvites)
    {become : β → Identity}
    (edit_move : ∀ actions index, actions.edit (move index) =
      (view.set actions ((view.get actions).eraseIdx index)).accepting
        (actions.acceptedInvites ++ ((view.get actions)[index]?.map become).toList))
    {decide : Nat → α → Option Decision} (stays moves : α → Bool)
    (decides : ∀ index entry, (decide index entry).map (·.edit) =
      if stays entry then none
      else some (if moves entry then move index else .drop slot index))
    (apart : ∀ entry, moves entry = true → stays entry = false)
    {others : List α} {actions : Actions} (same : others.length = (view.get actions).length) :
    Decision.carryOut edit actions (Decision.onEntries others decide) =
      view.set (actions.accepting (actions.acceptedInvites
          ++ ((keepWhere moves others (view.get actions)).map become).reverse))
        (keepWhere stays others (view.get actions)) := by
  -- the general lemma for one list, with what is accepted on the way as its state
  refine (view.carryOut_onEntries stays (fun pair actions =>
    if moves pair.1 then actions.accepting (actions.acceptedInvites ++ [become pair.2])
    else actions) ?_ same ?_ (List.append_nil _).symm).trans ?_
  · intro pair actions entries
    split
    · rw [view_accepting, view_accepted]
    · rfl
  · -- entries are taken from the last one on, and the front is still as it was
    intro pair _ actions front kept here
    have erased : (view.get actions).eraseIdx front.length = front ++ kept := by
      rw [here, eraseIdx_length_append]
    have found : (view.get actions)[front.length]? = some pair.2 := by
      rw [here, List.getElem?_append_right (Nat.le_refl _), Nat.sub_self]
      rfl
    -- what is decided about the entry is the edit that the two tests call for
    have edits := decides front.length pair.1
    cases decided : decide front.length pair.1 with
    | none =>
      rw [decided, Option.map_none] at edits
      split at edits
      · rename_i stays
        rw [if_pos stays]
        rfl
      · cases edits
    | some decision =>
      rw [decided, Option.map_some] at edits
      split at edits
      · cases edits
      · rename_i leaves
        have carried : Decision.carryOut edit actions (some decision).toList =
            actions.edit decision.edit := rfl
        rw [if_neg leaves, carried, Option.some.inj edits]
        split
        · rw [edit_move, erased, found, view_accepting]
          rfl
        · exact (view.edit_drop actions _).trans (by rw [erased])
  · -- only those who leave the list can move, so the second test is enough
    rw [foldr_move moves, List.filter_filter, List.append_nil]
    have moving : (others.zip (view.get actions)).filter
        (fun pair => moves pair.1 && !stays pair.1) =
          (others.zip (view.get actions)).filter (moves ·.1) := by
      apply List.filter_congr
      intro pair _
      cases moved : moves pair.1 with
      | true => rw [apart pair.1 moved]; rfl
      | false => rfl
    rw [moving, keepWhere, keepWhere]

end Sealed.Actions

/-- What an addition becomes when the invite is accepted instead. -/
def Sealed.AddMember.acceptance (entry : Sealed.AddMember) : Sealed.Identity :=
  Sealed.Actions.acceptance (entry.added.getD {}).presentation

/-- What a join request becomes when the invite is accepted instead. -/
def Sealed.AddRequest.acceptance (entry : Sealed.AddRequest) : Sealed.Identity :=
  Sealed.Actions.acceptance (entry.added.getD {}).presentation

namespace Sealed.Actions

variable {group : Snapshot} {change : Change} {actions : Actions}

theorem carryOut_decideNewMember (same : change.newMembers.length = actions.newMembers.length) :
    Decision.carryOut edit actions (Decision.onEntries change.newMembers group.decideNewMember) =
      { actions with
        newMembers := keepWhere group.stillToAdd change.newMembers actions.newMembers
        acceptedInvites := actions.acceptedInvites
          ++ ((keepWhere group.acceptsInstead change.newMembers actions.newMembers).map
            (·.acceptance)).reverse } := by
  refine carryOut_move View.newMembers .acceptAsNewMember (fun _ _ _ => rfl) (fun _ _ => rfl)
    (fun _ _ => rfl) group.stillToAdd group.acceptsInstead ?_ ?_ same
  · intro index entry
    cases member : group.hasMember entry.aci <;> cases invited : group.hasInvitee entry.aci <;>
      simp [Snapshot.decideNewMember, Snapshot.stillToAdd, Snapshot.acceptsInstead, member, invited,
        Decision.drop]
  · intro entry moves
    simp_all [Snapshot.stillToAdd, Snapshot.acceptsInstead]

theorem carryOut_decideNewRequest
    (same : change.newRequests.length = actions.newRequests.length) :
    Decision.carryOut edit actions
        (Decision.onEntries change.newRequests group.decideNewRequest) =
      { actions with
        newRequests := keepWhere group.stillToRequest change.newRequests actions.newRequests
        acceptedInvites := actions.acceptedInvites
          ++ ((keepWhere group.acceptsInsteadOfAsking change.newRequests actions.newRequests).map
            (·.acceptance)).reverse } := by
  refine carryOut_move View.newRequests .acceptAsRequester (fun _ _ _ => rfl) (fun _ _ => rfl)
    (fun _ _ => rfl) group.stillToRequest group.acceptsInsteadOfAsking ?_ ?_ same
  · intro index entry
    cases known : group.hasMember entry.aci || group.hasRequest entry.aci <;>
      cases invited : group.hasInvitee entry.aci <;>
      simp [Snapshot.decideNewRequest, Snapshot.stillToRequest, Snapshot.acceptsInsteadOfAsking,
        known, invited, Decision.drop]
  · intro entry moves
    simp_all [Snapshot.stillToRequest, Snapshot.acceptsInsteadOfAsking]

/-! ### All of the actions -/

/-- Every list of the actions has as many entries as that of the change. -/
structure InStep (actions : Actions) (change : Change) : Prop where
  newMembers : change.newMembers.length = actions.newMembers.length
  removedMembers : change.removedMembers.length = actions.removedMembers.length
  roleChanges : change.roleChanges.length = actions.roleChanges.length
  profileKeyChanges : change.profileKeyChanges.length = actions.profileKeyChanges.length
  newInvites : change.newInvites.length = actions.newInvites.length
  revokedInvites : change.revokedInvites.length = actions.revokedInvites.length
  acceptedInvites : change.acceptedInvites.length = actions.acceptedInvites.length
  newRequests : change.newRequests.length = actions.newRequests.length
  refusedRequests : change.refusedRequests.length = actions.refusedRequests.length
  approvedRequests : change.approvedRequests.length = actions.approvedRequests.length
  newBans : change.newBans.length = actions.newBans.length
  liftedBans : change.liftedBans.length = actions.liftedBans.length
  acceptedPniInvites : change.acceptedPniInvites.length = actions.acceptedPniInvites.length

/-- What rebasing leaves of actions, going by the change in step with them. -/
def remainder (actions : Actions) (group : Snapshot) (change : Change) : Actions :=
  { actions with
    newMembers := keepWhere group.stillToAdd change.newMembers actions.newMembers
    removedMembers := keepWhere group.hasMember change.removedMembers actions.removedMembers
    roleChanges :=
      keepWhere (fun entry => (group.lastMember? entry.aci).any (·.role != entry.role))
        change.roleChanges actions.roleChanges
    profileKeyChanges :=
      keepWhere (fun entry => (group.lastMember? entry.aci).any (·.profileKey != entry.profileKey))
        change.profileKeyChanges actions.profileKeyChanges
    newInvites :=
      keepWhere (fun invite =>
          !(group.hasMember invite.invitee || group.hasInvitee invite.invitee))
        change.newInvites actions.newInvites
    revokedInvites :=
      keepWhere (fun entry =>
          group.hasInvite entry.ciphertext || group.hasInvitee entry.invitee)
        change.revokedInvites actions.revokedInvites
    acceptedInvites :=
      keepWhere (fun member => group.hasInvitee member.aci) change.acceptedInvites
          actions.acceptedInvites
        ++ ((keepWhere group.acceptsInstead change.newMembers actions.newMembers).map
          (·.acceptance)).reverse
        ++ ((keepWhere group.acceptsInsteadOfAsking change.newRequests actions.newRequests).map
          (·.acceptance)).reverse
    title := if change.title.any (·.value == group.title) then none else actions.title
    avatar := if change.avatar.any (·.value == group.avatar) then none else actions.avatar
    timer := if change.timer.any (·.duration == group.duration) then none else actions.timer
    attributesAccess :=
      if change.attributesAccess = (group.access.getD {}).attributes then none
      else actions.attributesAccess
    membersAccess :=
      if change.membersAccess = (group.access.getD {}).members then none
      else actions.membersAccess
    inviteLinkAccess :=
      if change.inviteLinkAccess = (group.access.getD {}).inviteLink then none
      else actions.inviteLinkAccess
    newRequests := keepWhere group.stillToRequest change.newRequests actions.newRequests
    refusedRequests := keepWhere group.hasRequest change.refusedRequests actions.refusedRequests
    approvedRequests :=
      keepWhere (fun entry => group.hasRequest entry.aci) change.approvedRequests
        actions.approvedRequests
    description :=
      if change.description.any (·.value == group.description) then none else actions.description
    announcementsOnly :=
      if change.announcements = group.announcements then none else actions.announcementsOnly
    newBans := keepWhere (fun ban => !group.hasBan ban.serviceId) change.newBans actions.newBans
    liftedBans :=
      keepWhere (fun ban => group.hasBan ban.serviceId) change.liftedBans actions.liftedBans
    acceptedPniInvites :=
      keepWhere (fun member => !group.hasMember member.aci) change.acceptedPniInvites
        actions.acceptedPniInvites }

theorem rebase_eq_carryOut (actions : Actions) (group : Snapshot) (change : Change) :
    actions.rebase group change = Decision.carryOut edit actions (group.decisions change) := rfl

/-- Rebasing leaves of actions the entries in step with those of the change that pass their tests,
and of the change itself these entries. -/
theorem rebase_of_inStep (group : Snapshot) (inStep : actions.InStep change) :
    actions.rebase group change = actions.remainder group change
      ∧ change.rebase group = change.remainder group := by
  refine ⟨(rebase_eq_carryOut _ _ _).trans ?_, change.rebase_eq_remainder group⟩
  -- decision after decision, each one on the slots as the ones before left them
  unfold Snapshot.decisions
  simp only [Decision.carryOut_append, carryOut_decideNewMember inStep.newMembers,
    View.removedMembers.carryOut_keepOnly,
    View.roleChanges.carryOut_keepOnly, View.profileKeyChanges.carryOut_keepOnly,
    View.newInvites.carryOut_keepOnly, View.revokedInvites.carryOut_keepOnly,
    View.acceptedInvites.carryOut_keepOnly, carryOut_clearIf ValueView.title,
    carryOut_clearIf ValueView.avatar, carryOut_clearIf ValueView.timer,
    carryOut_clearIf ValueView.attributesAccess, carryOut_clearIf ValueView.membersAccess,
    carryOut_clearIf ValueView.inviteLinkAccess, carryOut_decideNewRequest, inStep.newRequests,
    View.refusedRequests.carryOut_keepOnly, View.approvedRequests.carryOut_keepOnly,
    carryOut_clearIf ValueView.description, carryOut_clearIf ValueView.announcementsOnly,
    View.newBans.carryOut_keepOnly, View.liftedBans.carryOut_keepOnly,
    View.acceptedPniInvites.carryOut_keepOnly, inStep.removedMembers, inStep.roleChanges,
    inStep.profileKeyChanges, inStep.newInvites, inStep.revokedInvites, inStep.acceptedInvites,
    inStep.refusedRequests, inStep.approvedRequests, inStep.newBans, inStep.liftedBans,
    inStep.acceptedPniInvites, Nat.le_refl, List.length_append, Nat.le_add_right,
    keepWhere_append, List.drop_length, List.drop_left, List.append_nil, decide_eq_true_eq]
  rfl

end Sealed.Actions

namespace Sample

/-- Actions whose entries are told apart by a byte. Two of those to be added and two of those who
ask to be let in accept an invite instead, and the title is cleared whatever the actions hold. -/
theorem rebase_of_inStep_sample :
    let group : Snapshot := {
      title := "Climbing"
      members := [administrator 1, member 2]
      invites := [invite 3, invite 4, invite 5, invite 6, invite 7]
      requests := [request 8] }
    let change : Change := {
      newMembers := [member 2, member 3, member 9, member 4]
      roleChanges := [promotion 1, demotion 1, promotion 2]
      acceptedInvites := [member 2, member 7]
      title := some ⟨"Climbing"⟩
      avatar := some ⟨"picture"⟩
      newRequests := [request 5, request 8, request 6] }
    let addition (b : UInt8) : Sealed.AddMember := { added := some { presentation := [b] } }
    let request (b : UInt8) : Sealed.AddRequest := { added := some { presentation := [b] } }
    let actions : Sealed.Actions := {
      newMembers := [addition 2, addition 3, addition 9, addition 4]
      roleChanges := [⟨[0], .administrator⟩, ⟨[1], .normal⟩, ⟨[2], .administrator⟩]
      acceptedInvites := [{ presentation := [2] }, { presentation := [7] }]
      title := some ⟨[1, 2, 3]⟩
      avatar := some ⟨"picture"⟩
      newRequests := [request 5, request 8, request 6] }
    actions.InStep change ∧
      actions.rebase group change = {
        newMembers := [addition 9]
        roleChanges := [⟨[1], .normal⟩, ⟨[2], .administrator⟩]
        acceptedInvites := [
          { presentation := [7] }, { presentation := [4] }, { presentation := [3] },
          { presentation := [6] }, { presentation := [5] }]
        avatar := some ⟨"picture"⟩ } := by
  intro group change addition request actions
  have inStep : actions.InStep change := by constructor <;> rfl
  obtain ⟨rebased, -⟩ := Sealed.Actions.rebase_of_inStep group inStep
  refine ⟨inStep, rebased.trans ?_⟩
  decide +kernel

end Sample

end SealedGroups
