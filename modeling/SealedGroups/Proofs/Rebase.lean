import SealedGroups.Group.Rebase
import SealedGroups.Proofs.Decisions
import SealedGroups.Proofs.Step.Effect

/-!
# What rebasing leaves of a change

Rebasing takes decisions entry by entry and carries them out by position, from the end of every list
towards its front. This file says what comes out of it (`rebase_eq_remainder`): every list keeps the
entries that pass its test, in their order, and those who were to be added or ask to be let in but
hold an invite stand behind the accepted invites, each of the two lists in reverse.

A list of a change is named by a `View` of it, so that what is proved of decisions on one list holds
for all of them.
-/

namespace SealedGroups

/-! ### What a group knows -/

namespace Snapshot

variable {group : Snapshot} {id : Bytes}

theorem hasMember_iff : group.hasMember id = true ↔ id ∈ group.memberAcis :=
  any_key_iff

theorem hasInvitee_iff : group.hasInvitee id = true ↔ id ≠ [] ∧ id ∈ group.invitees := by
  rw [hasInvitee, Bool.and_eq_true, any_key_iff]
  simp [invitees]

theorem hasInvite_iff : group.hasInvite id = true ↔ id ∈ group.ciphertexts :=
  any_key_iff

theorem hasRequest_iff : group.hasRequest id = true ↔ id ∈ group.requesters :=
  any_key_iff

theorem hasBan_iff : group.hasBan id = true ↔ id ∈ group.banned :=
  any_key_iff

theorem lastMember_mem {member : Member} (h : group.lastMember? id = some member) :
    member ∈ group.members ∧ member.aci = id :=
  ⟨List.mem_reverse.1 (List.mem_of_find?_eq_some h), by simpa using List.find?_some h⟩

end Snapshot

namespace Change

/-- A list of a change, to look at and to replace. -/
structure View (α : Type) (slot : ListSlot) where
  get : Change → List α
  set : Change → List α → Change
  get_set : ∀ change entries, get (set change entries) = entries
  set_get : ∀ change, set change (get change) = change
  set_set : ∀ change first entries, set (set change first) entries = set change entries
  dropEntry_eq : ∀ change index,
    change.dropEntry index slot = set change ((get change).eraseIdx index)

namespace View

abbrev newMembers : View Member .newMembers :=
  ⟨(·.newMembers), fun change newMembers => { change with newMembers },
    fun _ _ => rfl, fun _ => rfl, fun _ _ _ => rfl, fun _ _ => rfl⟩

abbrev removedMembers : View Bytes .removedMembers :=
  ⟨(·.removedMembers), fun change removedMembers => { change with removedMembers },
    fun _ _ => rfl, fun _ => rfl, fun _ _ _ => rfl, fun _ _ => rfl⟩

abbrev roleChanges : View RoleChange .roleChanges :=
  ⟨(·.roleChanges), fun change roleChanges => { change with roleChanges },
    fun _ _ => rfl, fun _ => rfl, fun _ _ _ => rfl, fun _ _ => rfl⟩

abbrev profileKeyChanges : View Member .profileKeyChanges :=
  ⟨(·.profileKeyChanges), fun change profileKeyChanges => { change with profileKeyChanges },
    fun _ _ => rfl, fun _ => rfl, fun _ _ _ => rfl, fun _ _ => rfl⟩

abbrev newInvites : View Invite .newInvites :=
  ⟨(·.newInvites), fun change newInvites => { change with newInvites },
    fun _ _ => rfl, fun _ => rfl, fun _ _ _ => rfl, fun _ _ => rfl⟩

abbrev revokedInvites : View Revocation .revokedInvites :=
  ⟨(·.revokedInvites), fun change revokedInvites => { change with revokedInvites },
    fun _ _ => rfl, fun _ => rfl, fun _ _ _ => rfl, fun _ _ => rfl⟩

abbrev acceptedInvites : View Member .acceptedInvites :=
  ⟨(·.acceptedInvites), fun change acceptedInvites => { change with acceptedInvites },
    fun _ _ => rfl, fun _ => rfl, fun _ _ _ => rfl, fun _ _ => rfl⟩

abbrev newRequests : View JoinRequest .newRequests :=
  ⟨(·.newRequests), fun change newRequests => { change with newRequests },
    fun _ _ => rfl, fun _ => rfl, fun _ _ _ => rfl, fun _ _ => rfl⟩

abbrev refusedRequests : View Bytes .refusedRequests :=
  ⟨(·.refusedRequests), fun change refusedRequests => { change with refusedRequests },
    fun _ _ => rfl, fun _ => rfl, fun _ _ _ => rfl, fun _ _ => rfl⟩

abbrev approvedRequests : View Approval .approvedRequests :=
  ⟨(·.approvedRequests), fun change approvedRequests => { change with approvedRequests },
    fun _ _ => rfl, fun _ => rfl, fun _ _ _ => rfl, fun _ _ => rfl⟩

abbrev newBans : View Ban .newBans :=
  ⟨(·.newBans), fun change newBans => { change with newBans },
    fun _ _ => rfl, fun _ => rfl, fun _ _ _ => rfl, fun _ _ => rfl⟩

abbrev liftedBans : View Ban .liftedBans :=
  ⟨(·.liftedBans), fun change liftedBans => { change with liftedBans },
    fun _ _ => rfl, fun _ => rfl, fun _ _ _ => rfl, fun _ _ => rfl⟩

abbrev acceptedPniInvites : View Member .acceptedPniInvites :=
  ⟨(·.acceptedPniInvites), fun change acceptedPniInvites => { change with acceptedPniInvites },
    fun _ _ => rfl, fun _ => rfl, fun _ _ _ => rfl, fun _ _ => rfl⟩

end View

/-- A value of a change, to look at and to replace. -/
structure ValueView (α : Type) (slot : ValueSlot) where
  get : Change → α
  set : Change → α → Change
  unset : α
  set_get : ∀ change, set change (get change) = change
  clearValue_eq : ∀ change, change.clearValue slot = set change unset

namespace ValueView

abbrev title : ValueView (Option Text) .title :=
  ⟨(·.title), fun change title => { change with title }, none, fun _ => rfl, fun _ => rfl⟩

abbrev avatar : ValueView (Option Text) .avatar :=
  ⟨(·.avatar), fun change avatar => { change with avatar }, none, fun _ => rfl, fun _ => rfl⟩

abbrev timer : ValueView (Option Timer) .timer :=
  ⟨(·.timer), fun change timer => { change with timer }, none, fun _ => rfl, fun _ => rfl⟩

abbrev attributesAccess : ValueView Access .attributesAccess :=
  ⟨(·.attributesAccess), fun change attributesAccess => { change with attributesAccess }, .unknown,
    fun _ => rfl, fun _ => rfl⟩

abbrev membersAccess : ValueView Access .membersAccess :=
  ⟨(·.membersAccess), fun change membersAccess => { change with membersAccess }, .unknown,
    fun _ => rfl, fun _ => rfl⟩

abbrev inviteLinkAccess : ValueView Access .inviteLinkAccess :=
  ⟨(·.inviteLinkAccess), fun change inviteLinkAccess => { change with inviteLinkAccess }, .unknown,
    fun _ => rfl, fun _ => rfl⟩

abbrev description : ValueView (Option Text) .description :=
  ⟨(·.description), fun change description => { change with description }, none,
    fun _ => rfl, fun _ => rfl⟩

abbrev announcements : ValueView Announcements .announcements :=
  ⟨(·.announcements), fun change announcements => { change with announcements }, .unknown,
    fun _ => rfl, fun _ => rfl⟩

end ValueView

/-! ### Decisions on one list -/

/-- Carries out decisions one after the other. -/
def carryOut (change : Change) (decisions : List Decision) : Change :=
  decisions.foldl (fun result decision => result.edit decision.edit) change

theorem carryOut_append (change : Change) (first rest : List Decision) :
    change.carryOut (first ++ rest) = (change.carryOut first).carryOut rest :=
  List.foldl_append

/-- A list of a change as one of a record that is edited. -/
def View.listing {α : Type} {slot : ListSlot} (view : View α slot) :
    Listing Change.edit α slot where
  get := view.get
  set := view.set
  get_set := view.get_set
  set_get := view.set_get
  set_set := view.set_set
  edit_drop := view.dropEntry_eq

/-- Decisions on the entries of a list that either leave an entry or take it out, and then may do
something more (`act`) that does not look at the list: what stays is filtered out, and the rest is
done from the end. Entries behind those that are decided on stay. -/
theorem carryOut_onEntries {α : Type} {slot : ListSlot} (view : View α slot)
    {decide : Nat → α → Option Decision} (stays : α → Bool) (act : α → Change → Change)
    (act_set : ∀ entry change entries,
      act entry (view.set change entries) = view.set (act entry change) entries)
    (decided : ∀ change front entry kept, view.get change = front ++ entry :: kept →
      change.carryOut (decide front.length entry).toList =
        if stays entry then change else view.set (act entry change) (front ++ kept))
    {entries kept : List α} {change : Change} (here : view.get change = entries ++ kept) :
    change.carryOut (Decision.onEntries entries decide) =
      view.set ((entries.filter (!stays ·)).foldr act change) (entries.filter stays ++ kept) := by
  -- the general lemma pairs an entry with the one that is decided on, here the same
  have decided_pair : ∀ pair ∈ entries.zip entries, ∀ change front kept,
      view.get change = front ++ pair.2 :: kept →
        change.carryOut (decide front.length pair.1).toList =
          if stays pair.1 then change
          else view.set (act pair.1 change) (front ++ kept) := by
    intro pair mem change front kept here
    rw [zip_self] at mem
    obtain ⟨entry, -, rfl⟩ := List.mem_map.1 mem
    exact decided change front entry kept here
  have carried := view.listing.carryOut_onEntries stays (fun pair => act pair.1)
    (fun pair => act_set pair.1) rfl decided_pair here
  rw [keepWhere_self, zip_self, List.filter_map, List.foldr_map] at carried
  exact carried

/-- Dropping what fails a test, entry by entry, filters the list; entries that have come to stand
behind those decided on stay. -/
theorem carryOut_keepOnly {α : Type} {slot : ListSlot} (view : View α slot) {message : String}
    {keep : α → Bool} {entries : List α} {change : Change} (here : entries <+: view.get change) :
    change.carryOut (Decision.keepOnly slot message keep entries) =
      view.set change (entries.filter keep ++ (view.get change).drop entries.length) := by
  obtain ⟨kept, here⟩ := here
  have long : entries.length ≤ (view.get change).length := by
    rw [← here, List.length_append]
    exact Nat.le_add_right _ _
  have split : keepWhere keep entries (view.get change) = entries.filter keep := by
    rw [← here, keepWhere_append keep rfl, keepWhere_self]
  rw [← split]
  exact view.listing.carryOut_keepOnly long

/-- Puts those who pass a test behind the accepted invites. -/
private theorem foldr_accept {α : Type} (moves : α → Bool) (toMember : UInt32 → α → Member)
    (entries : List α) (change : Change) :
    entries.foldr (fun entry change =>
        if moves entry then
          { change with
            acceptedInvites := change.acceptedInvites ++ [toMember change.revision entry] }
        else change) change =
      { change with
        acceptedInvites := change.acceptedInvites
          ++ ((entries.filter moves).map (toMember change.revision)).reverse } := by
  -- the fold goes from the right, so whoever moves last is accepted first
  induction entries with
  | nil => simp
  | cons entry rest ih =>
    rw [List.foldr_cons, ih]
    by_cases moved : moves entry = true
    · rw [if_pos moved, List.filter_cons_of_pos moved]
      simp
    · rw [if_neg moved, List.filter_cons_of_neg moved]

end Change

/-! ### The whole change -/

theorem Change.carryOut_clearIf {α : Type} {slot : ValueSlot} (view : ValueView α slot)
    {superfluous : Bool} {change : Change} :
    change.carryOut (Decision.clearIf slot superfluous) =
      view.set change (if superfluous then view.unset else view.get change) := by
  cases superfluous with
  | true => exact view.clearValue_eq change
  | false => exact (view.set_get change).symm

namespace Snapshot

/-- Whoever is neither a member nor invited is still to be added. -/
def stillToAdd (group : Snapshot) (member : Member) : Bool :=
  !group.hasMember member.aci && !group.hasInvitee member.aci

/-- Whoever is invited and no member accepts the invite instead of being added. -/
def acceptsInstead (group : Snapshot) (member : Member) : Bool :=
  !group.hasMember member.aci && group.hasInvitee member.aci

/-- Whoever is unknown to the group still asks to be let in. -/
def stillToRequest (group : Snapshot) (request : JoinRequest) : Bool :=
  !(group.hasMember request.aci || group.hasRequest request.aci) && !group.hasInvitee request.aci

/-- Whoever is invited and nothing else accepts the invite instead of asking. -/
def acceptsInsteadOfAsking (group : Snapshot) (request : JoinRequest) : Bool :=
  !(group.hasMember request.aci || group.hasRequest request.aci) && group.hasInvitee request.aci

end Snapshot

namespace Change

theorem carryOut_decideNewMember {group : Snapshot} {change : Change} :
    change.carryOut (Decision.onEntries change.newMembers group.decideNewMember) =
      { change with
        newMembers := change.newMembers.filter group.stillToAdd
        acceptedInvites :=
          change.acceptedInvites ++ (change.newMembers.filter group.acceptsInstead).reverse } := by
  refine (carryOut_onEntries View.newMembers group.stillToAdd (fun entry change =>
    if group.acceptsInstead entry then
      { change with acceptedInvites := change.acceptedInvites ++ [entry] }
    else change) ?_ ?_ (List.append_nil _).symm).trans ?_
  · intro entry change entries
    split <;> rfl
  · -- entries are taken from the last one on: what is behind this one is settled, the front is not
    intro change front entry kept here
    change change.newMembers = _ at here
    have erased : change.newMembers.eraseIdx front.length = front ++ kept := by
      rw [here, eraseIdx_length_append]
    cases member : group.hasMember entry.aci <;> cases invited : group.hasInvitee entry.aci <;>
      simp [Snapshot.decideNewMember, Snapshot.stillToAdd, Snapshot.acceptsInstead, member, invited,
        carryOut, edit, Decision.drop, dropEntry, erased]
    rw [here]
    simp
  · -- whoever moves leaves the list, so one test stands for both
    rw [foldr_accept group.acceptsInstead fun _ entry => entry, List.map_id', List.filter_filter,
      List.append_nil]
    simp only
    congr 3
    apply List.filter_congr
    intro entry _
    cases member : group.hasMember entry.aci <;> cases invited : group.hasInvitee entry.aci <;>
      simp [Snapshot.stillToAdd, Snapshot.acceptsInstead, member, invited]

theorem carryOut_decideNewRequest {group : Snapshot} {entries : List JoinRequest} {change : Change}
    (here : change.newRequests = entries) :
    change.carryOut (Decision.onEntries entries group.decideNewRequest) =
      { change with
        newRequests := entries.filter group.stillToRequest
        acceptedInvites := change.acceptedInvites
          ++ ((entries.filter group.acceptsInsteadOfAsking).map
            change.memberOfRequest).reverse } := by
  refine (carryOut_onEntries View.newRequests group.stillToRequest (fun entry change =>
    if group.acceptsInsteadOfAsking entry then
      { change with
        acceptedInvites := change.acceptedInvites ++ [change.memberOfRequest entry] }
    else change) ?_ ?_ (here.trans (List.append_nil _).symm)).trans ?_
  · intro entry change entries
    split <;> rfl
  · intro change front entry kept here
    change change.newRequests = _ at here
    have erased : change.newRequests.eraseIdx front.length = front ++ kept := by
      rw [here, eraseIdx_length_append]
    cases known : group.hasMember entry.aci || group.hasRequest entry.aci <;>
      cases invited : group.hasInvitee entry.aci <;>
      simp [Snapshot.decideNewRequest, Snapshot.stillToRequest, Snapshot.acceptsInsteadOfAsking,
        known, invited, carryOut, edit, Decision.drop, dropEntry, erased]
    rw [here]
    simp [memberOfRequest]
  · refine (congrArg (View.newRequests.set · _) (foldr_accept group.acceptsInsteadOfAsking
      (fun revision request =>
        { aci := request.aci
          role := .normal
          profileKey := request.profileKey
          joinedAt := revision })
      _ change)).trans ?_
    rw [List.filter_filter, List.append_nil]
    simp only
    congr 4
    apply List.filter_congr
    intro entry _
    cases known : group.hasMember entry.aci || group.hasRequest entry.aci <;>
      cases invited : group.hasInvitee entry.aci <;>
      simp [Snapshot.stillToRequest, Snapshot.acceptsInsteadOfAsking, known, invited]

/-- What rebasing leaves of a change. -/
def remainder (change : Change) (group : Snapshot) : Change :=
  { change with
    newMembers := change.newMembers.filter group.stillToAdd
    removedMembers := change.removedMembers.filter group.hasMember
    roleChanges := change.roleChanges.filter fun entry =>
      (group.lastMember? entry.aci).any (·.role != entry.role)
    profileKeyChanges := change.profileKeyChanges.filter fun entry =>
      (group.lastMember? entry.aci).any (·.profileKey != entry.profileKey)
    newInvites := change.newInvites.filter fun invite =>
      !(group.hasMember invite.invitee || group.hasInvitee invite.invitee)
    revokedInvites := change.revokedInvites.filter fun entry =>
      group.hasInvite entry.ciphertext || group.hasInvitee entry.invitee
    acceptedInvites := (change.acceptedInvites.filter fun member => group.hasInvitee member.aci)
      ++ (change.newMembers.filter group.acceptsInstead).reverse
      ++ ((change.newRequests.filter group.acceptsInsteadOfAsking).map
        change.memberOfRequest).reverse
    title := if change.title.any (·.value == group.title) then none else change.title
    avatar := if change.avatar.any (·.value == group.avatar) then none else change.avatar
    timer := if change.timer.any (·.duration == group.duration) then none else change.timer
    attributesAccess :=
      if change.attributesAccess = (group.access.getD {}).attributes then .unknown
      else change.attributesAccess
    membersAccess :=
      if change.membersAccess = (group.access.getD {}).members then .unknown
      else change.membersAccess
    inviteLinkAccess :=
      if change.inviteLinkAccess = (group.access.getD {}).inviteLink then .unknown
      else change.inviteLinkAccess
    newRequests := change.newRequests.filter group.stillToRequest
    refusedRequests := change.refusedRequests.filter group.hasRequest
    approvedRequests := change.approvedRequests.filter fun entry => group.hasRequest entry.aci
    description :=
      if change.description.any (·.value == group.description) then none else change.description
    announcements :=
      if change.announcements = group.announcements then .unknown else change.announcements
    newBans := change.newBans.filter fun ban => !group.hasBan ban.serviceId
    liftedBans := change.liftedBans.filter fun ban => group.hasBan ban.serviceId
    acceptedPniInvites := change.acceptedPniInvites.filter fun member =>
      !group.hasMember member.aci }

/-- Rebasing does not look at the revision. -/
theorem remainder_atRevision (change : Change) (group : Snapshot) (revision : UInt32) :
    change.remainder (group.atRevision revision) = change.remainder group := rfl

theorem rebase_eq_carryOut (change : Change) (group : Snapshot) :
    change.rebase group = change.carryOut (group.decisions change) := rfl

/-- Rebasing a change leaves its remainder. -/
theorem rebase_eq_remainder (change : Change) (group : Snapshot) :
    change.rebase group = change.remainder group := by
  refine (rebase_eq_carryOut _ _).trans ?_
  -- decision after decision, each one on what the ones before have left
  unfold Snapshot.decisions
  simp only [carryOut_append, carryOut_decideNewMember, carryOut_keepOnly View.removedMembers,
    carryOut_keepOnly View.roleChanges, carryOut_keepOnly View.profileKeyChanges,
    carryOut_keepOnly View.newInvites, carryOut_keepOnly View.revokedInvites,
    carryOut_keepOnly View.acceptedInvites, carryOut_clearIf ValueView.title,
    carryOut_clearIf ValueView.avatar, carryOut_clearIf ValueView.timer,
    carryOut_clearIf ValueView.attributesAccess, carryOut_clearIf ValueView.membersAccess,
    carryOut_clearIf ValueView.inviteLinkAccess, carryOut_decideNewRequest,
    carryOut_keepOnly View.refusedRequests, carryOut_keepOnly View.approvedRequests,
    carryOut_clearIf ValueView.description, carryOut_clearIf ValueView.announcements,
    carryOut_keepOnly View.newBans, carryOut_keepOnly View.liftedBans,
    carryOut_keepOnly View.acceptedPniInvites, List.prefix_rfl, List.prefix_append,
    List.drop_length,
    List.drop_left, List.append_nil, decide_eq_true_eq]
  rfl

end Change

end SealedGroups
