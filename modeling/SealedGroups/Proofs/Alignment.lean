import SealedGroups.Proofs.Commands
import SealedGroups.Proofs.Emptiness
import SealedGroups.Proofs.OpenedGroup
import SealedGroups.Proofs.RebasedEntries

/-!
# A change lines up with the actions it comes from

A rebase edits actions by the positions that it finds in the change they decrypt to. It may, as
every list of the change has its entries where the actions have theirs, whatever bytes the actions
hold: who must be known is encrypted to the very ciphertext in the actions, and so is everybody else
who is known; an entry about nobody stays in its place (`aligned_of_openActions`).

Nothing is set on one side only, either: if what the actions set says anything, actions and change
are empty together (`isEmpty_iff_of_openActions`).
-/

namespace SealedGroups

/-! ### Names and ciphertexts -/

namespace Keyring

/-- The identity that a ciphertext hides, in its binary form, or nothing if there is none. -/
def nameBehind (keys : Keyring) (ciphertext : Bytes) : Bytes :=
  match fixedSize 57 ciphertext with
  | .error _ => []
  | .ok sealed =>
    match keys.openIdentity sealed with
    | .ok id => id.toBinary
    | .error _ => []

/-- A ciphertext is the one of an account, given by its binary form. -/
def SealsAccount (keys : Keyring) (ciphertext id : Bytes) : Prop :=
  ∃ aci : Uuid, aci.toList = id ∧ (keys.sealIdentity (.aci aci)).toList = ciphertext

/-- How someone who may stay unknown is named next to a ciphertext: by an identity that is encrypted
to it, or not at all, and this only without a ciphertext or with one that cannot be read. -/
structure Names (keys : Keyring) (ciphertext id : Bytes) : Prop where
  sealing : id ≠ [] →
    ∃ identity : ServiceId,
      identity.toBinary = id ∧ (keys.sealIdentity identity).toList = ciphertext
  nobody : id = [] ↔ ciphertext = [] ∨
    ∃ (sealed : IdentityCiphertext) (error : SealingError),
      sealed.toList = ciphertext ∧ keys.openIdentity sealed = .error error

variable {keys : Keyring}

theorem nameBehind_of_ok {sealed : IdentityCiphertext} {id : ServiceId}
    (opened : keys.openIdentity sealed = .ok id) :
    keys.nameBehind sealed.toList = id.toBinary := by
  rw [nameBehind, fixedSize_toList]
  simp only [opened]

theorem nameBehind_of_error {sealed : IdentityCiphertext} {error : SealingError}
    (refused : keys.openIdentity sealed = .error error) : keys.nameBehind sealed.toList = [] := by
  rw [nameBehind, fixedSize_toList]
  simp only [refused]

end Keyring

theorem ServiceId.toBinary_ne_nil (id : ServiceId) : id.toBinary ≠ [] := by
  cases id with
  | aci uuid => exact List.isEmpty_eq_false_iff.1 uuid.isEmpty_toList
  | pni uuid => exact List.cons_ne_nil _ _

namespace Keyring

variable {keys : Keyring}

theorem names_nil (keys : Keyring) : keys.Names [] [] where
  sealing known := absurd rfl known
  nobody := ⟨fun _ => .inl rfl, fun _ => rfl⟩

theorem names_toList (keys : Keyring) (sealed : IdentityCiphertext) :
    keys.Names sealed.toList (keys.nameBehind sealed.toList) := by
  have there : sealed.toList ≠ [] := List.isEmpty_eq_false_iff.1 sealed.isEmpty_toList
  cases opened : keys.openIdentity sealed with
  | ok id =>
    rw [nameBehind_of_ok opened]
    refine ⟨fun _ => ⟨id, rfl, ?_⟩, ⟨fun none => absurd none id.toBinary_ne_nil, ?_⟩⟩
    · rw [openIdentity_eq_ok_iff.1 opened]
    · -- a ciphertext that opens is neither missing nor refused
      rintro (none | ⟨other, error, same, refused⟩)
      · exact absurd none there
      · rw [Octets.ext_toList same, opened] at refused
        cases refused
  | error error =>
    rw [nameBehind_of_error opened]
    refine ⟨fun known => absurd rfl known, ⟨fun _ => ?_, fun _ => rfl⟩⟩
    exact .inr ⟨sealed, error, rfl, opened⟩

end Keyring

namespace GroupClient

variable {client : GroupClient}

/-- Where an identity need not decrypt, only the length of a ciphertext can be wrong. -/
theorem openIdentityOrUnknown_outcome (client : GroupClient) (bytes : Bytes) :
    (client.openIdentityOrUnknown bytes).outcome =
      if bytes = [] ∨ bytes.length = 57 then .ok (client.keys.nameBehind bytes)
      else .error (.invalidState .identifier (.sealing (.invalidLength 57 bytes.length))) := by
  by_cases none : bytes = []
  · rw [none]
    -- some bytes: whether they are read at all is a matter of their number
    rfl
  · have some : ¬ bytes.isEmpty = true := fun empty => none (List.isEmpty_iff.1 empty)
    by_cases long : bytes.length = 57
    · obtain ⟨sealed, rfl⟩ : ∃ sealed : IdentityCiphertext, sealed.toList = bytes :=
        ⟨⟨bytes, long⟩, rfl⟩
      rw [if_pos (.inr long), openIdentityOrUnknown_toList]
      -- the error is told to the caller in neither case, only the name is empty
      cases opened : client.keys.openIdentity sealed with
      | ok id => rw [Keyring.nameBehind_of_ok opened]
      | error error => rw [Keyring.nameBehind_of_error opened]
    · have refused : fixedSize 57 bytes = .error (.invalidLength 57 bytes.length) := by
        rw [fixedSize, Octets.ofList?_eq_none_iff.2 long]
      rw [if_neg (not_or.2 ⟨none, long⟩), openIdentityOrUnknown, if_neg some]
      simp only [refused]
      rfl

theorem openIdentityOrUnknown_eq_ok_iff {bytes id : Bytes} :
    (client.openIdentityOrUnknown bytes).outcome = .ok id ↔
      (bytes = [] ∨ bytes.length = 57) ∧ client.keys.nameBehind bytes = id := by
  rw [openIdentityOrUnknown_outcome]
  split <;> simp [*]

/-- Whoever is read is named next to the ciphertext. -/
theorem names_of_openIdentityOrUnknown {bytes id : Bytes}
    (opened : (client.openIdentityOrUnknown bytes).outcome = .ok id) :
    client.keys.Names bytes id := by
  obtain ⟨none | long, rfl⟩ := openIdentityOrUnknown_eq_ok_iff.1 opened
  · rw [none]
    exact client.keys.names_nil
  · exact client.keys.names_toList ⟨bytes, long⟩

end GroupClient

/-! ### Slot by slot -/

/-- Entry by entry, the identities of a change are the ones that actions hold the ciphertexts of. -/
structure Keyring.Aligned (keys : Keyring) (actions : Sealed.Actions) (change : Change) : Prop where
  removedMembers : List.Forall₂ (fun entry aci => keys.SealsAccount entry.userId aci)
    actions.removedMembers change.removedMembers
  roleChanges : List.Forall₂ (fun entry result => keys.SealsAccount entry.userId result.aci)
    actions.roleChanges change.roleChanges
  newInvites : List.Forall₂ (fun entry invite => ∃ added : Sealed.Invite, entry.added = some added
      ∧ keys.Names added.userId invite.invitee ∧ keys.Names added.inviter invite.inviter
      ∧ invite.ciphertext = added.userId)
    actions.newInvites change.newInvites
  revokedInvites : List.Forall₂ (fun entry result => keys.Names entry.userId result.invitee
      ∧ result.ciphertext = entry.userId)
    actions.revokedInvites change.revokedInvites
  refusedRequests : List.Forall₂ (fun entry aci => keys.SealsAccount entry.userId aci)
    actions.refusedRequests change.refusedRequests
  approvedRequests : List.Forall₂ (fun entry result => keys.SealsAccount entry.userId result.aci)
    actions.approvedRequests change.approvedRequests
  newBans : List.Forall₂ (fun entry ban => ∃ added : Sealed.Ban, entry.added = some added
      ∧ keys.Names added.userId ban.serviceId)
    actions.newBans change.newBans
  liftedBans : List.Forall₂ (fun entry ban => keys.Names entry.userId ban.serviceId)
    actions.liftedBans change.liftedBans

namespace GroupClient

variable {client : GroupClient} {actions : Sealed.Actions} {change : Change}

theorem Opens.inStep (opens : client.Opens actions change) : actions.InStep change where
  newMembers := (mapM_eq_ok_iff.1 opens.newMembers).length_eq.symm
  removedMembers := (mapM_eq_ok_iff.1 opens.removedMembers).length_eq.symm
  roleChanges := (mapM_eq_ok_iff.1 opens.roleChanges).length_eq.symm
  profileKeyChanges := (mapM_eq_ok_iff.1 opens.profileKeyChanges).length_eq.symm
  newInvites := (mapM_eq_ok_iff.1 opens.newInvites).length_eq.symm
  revokedInvites := (mapM_eq_ok_iff.1 opens.revokedInvites).length_eq.symm
  acceptedInvites := (mapM_eq_ok_iff.1 opens.acceptedInvites).length_eq.symm
  newRequests := (mapM_eq_ok_iff.1 opens.newRequests).length_eq.symm
  refusedRequests := (mapM_eq_ok_iff.1 opens.refusedRequests).length_eq.symm
  approvedRequests := (mapM_eq_ok_iff.1 opens.approvedRequests).length_eq.symm
  newBans := (mapM_eq_ok_iff.1 opens.newBans).length_eq.symm
  liftedBans := (mapM_eq_ok_iff.1 opens.liftedBans).length_eq.symm
  acceptedPniInvites := (mapM_eq_ok_iff.1 opens.acceptedPniInvites).length_eq.symm

theorem openBan_eq_ok_iff {entry : Sealed.Ban} {ban : Ban} :
    (client.openBan entry).outcome = .ok ban ↔
      (client.openIdentityOrUnknown entry.userId).outcome = .ok ban.serviceId
        ∧ entry.timestamp = ban.timestamp := by
  rw [openBan, Noted.outcome_bind, bind_eq_ok_iff]
  constructor
  · rintro ⟨id, read, same⟩
    cases same
    exact ⟨read, rfl⟩
  · rintro ⟨read, timestamp⟩
    exact ⟨_, read, by rw [timestamp]; rfl⟩

/-- Entries that name accounts hold their ciphertexts, whatever else is made of them. -/
theorem sealsAccount_of_mapM {α β : Type} {part : Part} {userId : α → Bytes} {make : α → Uuid → β}
    {entries : List α} {results : List β} (aci : β → Bytes)
    (named : ∀ entry uuid, aci (make entry uuid) = uuid.toList)
    (opened : (entries.mapM fun entry => do
      return make entry (← client.openAci part (userId entry))) = .ok results) :
    List.Forall₂ (fun entry result => client.keys.SealsAccount (userId entry) (aci result))
      entries results := by
  refine (mapM_eq_ok_iff.1 opened).imp fun entry result opened => ?_
  obtain ⟨uuid, read, same⟩ := bind_eq_ok_iff.1 opened
  cases same
  exact ⟨uuid, (named entry uuid).symm, openAci_eq_ok_iff.1 read⟩

theorem Opens.aligned (opens : client.Opens actions change) :
    client.keys.Aligned actions change where
  removedMembers := sealsAccount_of_mapM id (fun _ _ => rfl) opens.removedMembers
  roleChanges := sealsAccount_of_mapM RoleChange.aci (fun _ _ => rfl) opens.roleChanges
  newInvites := by
    -- an invite has two people in it, and its own ciphertext is the one of the invitee
    refine (mapM_eq_ok_iff.1 opens.newInvites).imp fun entry invite opened => ?_
    obtain ⟨added, there, opened⟩ := bind_eq_ok_iff.1 opened
    obtain ⟨invitee, inviter, -, -, ciphertext⟩ := openInvite_eq_ok_iff.1 opened
    exact ⟨added, require_eq_ok_iff.1 there, names_of_openIdentityOrUnknown invitee,
      names_of_openIdentityOrUnknown inviter, ciphertext.symm⟩
  revokedInvites := by
    refine (mapM_eq_ok_iff.1 opens.revokedInvites).imp fun entry revocation opened => ?_
    obtain ⟨invitee, read, same⟩ := bind_eq_ok_iff.1 opened
    cases same
    exact ⟨names_of_openIdentityOrUnknown read, rfl⟩
  refusedRequests := sealsAccount_of_mapM id (fun _ _ => rfl) opens.refusedRequests
  approvedRequests := sealsAccount_of_mapM Approval.aci (fun _ _ => rfl) opens.approvedRequests
  newBans := by
    refine (mapM_eq_ok_iff.1 opens.newBans).imp fun entry ban opened => ?_
    obtain ⟨added, there, opened⟩ := bind_eq_ok_iff.1 opened
    obtain ⟨read, -⟩ := openBan_eq_ok_iff.1 opened
    exact ⟨added, require_eq_ok_iff.1 there, names_of_openIdentityOrUnknown read⟩
  liftedBans := by
    refine (mapM_eq_ok_iff.1 opens.liftedBans).imp fun entry ban opened => ?_
    obtain ⟨id, read, same⟩ := bind_eq_ok_iff.1 opened
    cases same
    exact names_of_openIdentityOrUnknown read

/-- Every list of a change has as many entries as the actions have, and each identity in it belongs
to the ciphertext in the same place: it is encrypted to it, or was not there or not to be read. -/
theorem aligned_of_openActions {source : Option ServiceId}
    (opened : (client.openActions actions source).outcome = .ok change) :
    actions.InStep change ∧ client.keys.Aligned actions change := by
  have opens := opens_of_openActions opened
  exact ⟨opens.inStep, opens.aligned⟩

end GroupClient

/-! ### Emptiness -/

/-- Actions that say something wherever they set a right or the password of the invite link. -/
structure Sealed.Actions.Meaningful (actions : Actions) : Prop where
  attributesAccess : ∀ entry ∈ actions.attributesAccess, entry.access.isSet = true
  membersAccess : ∀ entry ∈ actions.membersAccess, entry.access.isSet = true
  inviteLinkAccess : ∀ entry ∈ actions.inviteLinkAccess, entry.access.isSet = true
  linkPassword : ∀ entry ∈ actions.linkPassword, entry.password ≠ []

theorem isEmpty_eq_of_length {α β : Type} {entries : List α} {results : List β}
    (same : results.length = entries.length) : results.isEmpty = entries.isEmpty := by
  rw [Bool.eq_iff_iff, List.isEmpty_iff_length_eq_zero, List.isEmpty_iff_length_eq_zero, same]

theorem isNone_of_mapM {ε α β : Type} {f : α → Noted ε β} {given : Option α} {result : Option β}
    (opened : (given.mapM f).outcome = .ok result) : result.isNone = given.isNone := by
  cases given with
  | none =>
    cases opened
    rfl
  | some a =>
    rw [Option.mapM_some, Noted.outcome_map] at opened
    -- a blob that is there and does not open would have stopped the opening
    cases read : (f a).outcome with
    | error e =>
      rw [read] at opened
      cases opened
    | ok b =>
      rw [read] at opened
      cases opened
      rfl

/-- A right counts as set exactly if the action that sets it is there. -/
theorem isSet_getD {α : Type} {access : α → Access} {given : Option α}
    (meaningful : ∀ entry ∈ given, (access entry).isSet = true) :
    ((given.map access).getD .unknown).isSet = given.isSome := by
  cases given with
  | none => rfl
  | some entry => exact meaningful entry rfl

theorem isEmpty_getD {α : Type} {password : α → Bytes} {given : Option α}
    (meaningful : ∀ entry ∈ given, password entry ≠ []) :
    ((given.map password).getD []).isEmpty = given.isNone := by
  cases given with
  | none => rfl
  | some entry => exact List.isEmpty_eq_false_iff.2 (meaningful entry rfl)

/-- An action that says whether only administrators may write always says something. -/
theorem isSet_getD_ofBool {α : Type} (only : α → Bool) (given : Option α) :
    ((given.map (Announcements.ofBool <| only ·)).getD .unknown).isSet = given.isSome := by
  cases given with
  | none => rfl
  | some entry =>
    rw [Option.map_some, Option.getD_some]
    cases only entry <;> rfl

namespace GroupClient

variable {client : GroupClient} {actions : Sealed.Actions} {change : Change}

/-- Actions that say something wherever they set a right or a password are empty exactly if the
change is that they decrypt to. -/
theorem isEmpty_iff_of_openActions {source : Option ServiceId}
    (opened : (client.openActions actions source).outcome = .ok change)
    (meaningful : actions.Meaningful) : actions.isEmpty = true ↔ change.isEmpty = true := by
  have opens := opens_of_openActions opened
  have inStep := opens.inStep
  -- access rights and the password count by their values, and an entry for them is meaningful
  have avatar : change.avatar.isNone = actions.avatar.isNone := by
    rw [← opens.avatar, Option.isNone_map]
  have attributesAccess : change.attributesAccess.isSet = actions.attributesAccess.isSome :=
    opens.attributesAccess ▸ isSet_getD meaningful.attributesAccess
  have membersAccess : change.membersAccess.isSet = actions.membersAccess.isSome :=
    opens.membersAccess ▸ isSet_getD meaningful.membersAccess
  have inviteLinkAccess : change.inviteLinkAccess.isSet = actions.inviteLinkAccess.isSome :=
    opens.inviteLinkAccess ▸ isSet_getD meaningful.inviteLinkAccess
  have linkPassword : change.linkPassword.isEmpty = actions.linkPassword.isNone :=
    opens.linkPassword ▸ isEmpty_getD meaningful.linkPassword
  have announcements : change.announcements.isSet = actions.announcementsOnly.isSome :=
    opens.announcements ▸ isSet_getD_ofBool _ _
  have same : change.isEmpty = actions.isEmpty := by
    -- slot by slot the two are the same now, but they are not looked at in the same order
    simp only [Change.isEmpty, Change.isEmptyExceptProfileKeys,
      Change.keepsMembershipAndAttributes, Sealed.Actions.isEmpty,
      isEmpty_eq_of_length inStep.newMembers, isEmpty_eq_of_length inStep.removedMembers,
      isEmpty_eq_of_length inStep.roleChanges, isEmpty_eq_of_length inStep.profileKeyChanges,
      isEmpty_eq_of_length inStep.newInvites, isEmpty_eq_of_length inStep.revokedInvites,
      isEmpty_eq_of_length inStep.acceptedInvites, isNone_of_mapM opens.title, avatar,
      isNone_of_mapM opens.timer, attributesAccess, membersAccess, inviteLinkAccess,
      isEmpty_eq_of_length inStep.newRequests, isEmpty_eq_of_length inStep.refusedRequests,
      isEmpty_eq_of_length inStep.approvedRequests, linkPassword, isNone_of_mapM opens.description,
      announcements, isEmpty_eq_of_length inStep.newBans, isEmpty_eq_of_length inStep.liftedBans,
      isEmpty_eq_of_length inStep.acceptedPniInvites, Option.not_isSome]
    ac_rfl
  rw [same]

end GroupClient

/-! ### Actions with entries about nobody -/

namespace Sample

/-- Actions that bring in an invite by somebody unknown and one that lost who is invited, take back
an invite of nobody, and lift the ban of one who is known behind one who is not. -/
def mixedActions : Sealed.Actions where
  revision := 3
  removedMembers := [⟨sealedId (.aci (uuid 1))⟩]
  roleChanges := [⟨sealedId (.aci (uuid 2)), .administrator⟩]
  newInvites := [
    { added := some {
        member := some { userId := sealedId (.pni (uuid 3)) }
        inviter := (ciphertext 3).toList } },
    { added := some {} }]
  revokedInvites := [⟨(ciphertext 3).toList⟩, ⟨sealedId (.aci (uuid 4))⟩]
  membersAccess := some ⟨.administrator⟩
  linkPassword := some ⟨[7]⟩
  liftedBans := [⟨[]⟩, ⟨sealedId (.pni (uuid 5))⟩]

def mixedChange : Change where
  editor := aci 6
  revision := 3
  removedMembers := [aci 1]
  roleChanges := [⟨aci 2, .administrator⟩]
  newInvites := [
    { invitee := pni 3, role := .normal, ciphertext := sealedId (.pni (uuid 3)) },
    { role := .normal }]
  revokedInvites := [
    { ciphertext := (ciphertext 3).toList },
    { invitee := aci 4, ciphertext := sealedId (.aci (uuid 4)) }]
  membersAccess := .administrator
  linkPassword := [7]
  liftedBans := [{}, { serviceId := pni 5 }]

theorem openIdentityOrUnknown_unreadable :
    (reader.openIdentityOrUnknown (ciphertext 3).toList).outcome = .ok [] :=
  GroupClient.openIdentityOrUnknown_eq_ok_iff.2
    ⟨.inr (ciphertext 3).length_toList, Keyring.nameBehind_of_error openIdentity_unreadable⟩

theorem openActions_mixedActions :
    (reader.openActions mixedActions (some (.aci (uuid 6)))).outcome = .ok mixedChange := by
  have readable : ∀ id, (reader.openIdentityOrUnknown (sealedId id)).outcome = .ok id.toBinary :=
    reader.openIdentityOrUnknown_sealIdentity
  have absent : (reader.openIdentityOrUnknown []).outcome = .ok [] := rfl
  refine GroupClient.openActions_eq_ok_iff.2 ⟨?_, rfl⟩
  constructor
  case removedMembers => exact reader.openAci_targets .removedMember [uuid 1]
  case roleChanges =>
    exact reader.openAci_grants .changedMember RoleChange.mk .administrator [uuid 2]
  case newInvites =>
    -- the entries are taken apart by lemmas, or else the ciphertexts would be computed
    -- the first invite hides its inviter, the second one both
    refine mapM_eq_ok_iff.2 (.cons ?_ (.cons ?_ .nil))
      <;> refine bind_eq_ok_iff.2 ⟨_, GroupClient.require_eq_ok_iff.2 rfl,
        GroupClient.openInvite_eq_ok_iff.2 ?_⟩
    · exact ⟨readable _, openIdentityOrUnknown_unreadable, rfl, rfl, rfl⟩
    · exact ⟨absent, absent, rfl, rfl, rfl⟩
  case revokedInvites =>
    refine mapM_eq_ok_iff.2 (.cons ?_ (.cons ?_ .nil))
    · rw [openIdentityOrUnknown_unreadable]
      rfl
    · rw [readable]
      rfl
  case liftedBans =>
    refine mapM_eq_ok_iff.2 (.cons ?_ (.cons ?_ .nil))
    · rw [absent]
      rfl
    · rw [readable]
      rfl
  all_goals rfl

theorem aligned_of_openActions_sample :
    (reader.openActions mixedActions (some (.aci (uuid 6)))).outcome = .ok mixedChange
      ∧ mixedActions.InStep mixedChange ∧ reader.keys.Aligned mixedActions mixedChange :=
  ⟨openActions_mixedActions, GroupClient.aligned_of_openActions openActions_mixedActions⟩

theorem meaningful_mixedActions : mixedActions.Meaningful := by
  constructor <;> intro entry given <;> cases given <;> decide

theorem isEmpty_iff_of_openActions_sample :
    (reader.openActions mixedActions (some (.aci (uuid 6)))).outcome = .ok mixedChange
      ∧ mixedActions.Meaningful ∧ (mixedActions.isEmpty = true ↔ mixedChange.isEmpty = true) :=
  ⟨openActions_mixedActions, meaningful_mixedActions,
    GroupClient.isEmpty_iff_of_openActions openActions_mixedActions meaningful_mixedActions⟩

end Sample

end SealedGroups
