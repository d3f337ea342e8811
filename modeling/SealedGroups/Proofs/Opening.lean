import SealedGroups.Client.Open
import SealedGroups.Proofs.Encodings
import SealedGroups.Proofs.Identifiers
import SealedGroups.Proofs.Sealing
import Mathlib.Data.List.Forall2

/-!
# What actions decrypt to, slot by slot

Actions decrypt to a change if every slot does on its own (`Opens`); only the editor depends on who
sent them (`openActions_eq_ok_iff`). A presentation made for the group is opened there.
-/

namespace SealedGroups

/-! ### Entries that are opened one by one -/

section

variable {ε α β : Type} {f : α → Except ε β} {a : α} {entries : List α} {results : List β}

theorem mapM_cons_eq_ok_iff : (a :: entries).mapM f = .ok results ↔
    ∃ b rest, f a = .ok b ∧ entries.mapM f = .ok rest ∧ b :: rest = results := by
  rw [List.mapM_cons, bind_eq_ok_iff]
  constructor
  · rintro ⟨b, first, later⟩
    obtain ⟨rest, opened, same⟩ := bind_eq_ok_iff.1 later
    exact ⟨b, rest, first, opened, Except.ok.inj same⟩
  · rintro ⟨b, rest, first, opened, rfl⟩
    exact ⟨b, first, bind_eq_ok_iff.2 ⟨rest, opened, rfl⟩⟩

theorem mapM_singleton_eq_ok {b : β} (opens : f a = .ok b) : [a].mapM f = .ok [b] :=
  mapM_cons_eq_ok_iff.2 ⟨b, [], opens, rfl, rfl⟩

/-- Entries open if each of them does, and the results stand in the same places. -/
theorem mapM_eq_ok_iff :
    entries.mapM f = .ok results ↔ List.Forall₂ (fun a b => f a = .ok b) entries results := by
  induction entries generalizing results with
  | nil =>
    rw [List.forall₂_nil_left_iff]
    exact ⟨fun opened => (Except.ok.inj opened).symm, fun none => none ▸ rfl⟩
  | cons a entries ih =>
    rw [mapM_cons_eq_ok_iff, List.forall₂_cons_left_iff]
    constructor
    · rintro ⟨b, rest, first, opened, rfl⟩
      exact ⟨b, rest, first, ih.1 opened, rfl⟩
    · rintro ⟨b, rest, first, opened, rfl⟩
      exact ⟨b, rest, first, ih.2 opened, rfl⟩

/-- Entries that are made one by one open to what each of them is made of. -/
theorem mapM_map_eq_ok {γ : Type} {make : γ → α} {read : γ → β} {sources : List γ}
    (opens : ∀ c ∈ sources, f (make c) = .ok (read c)) :
    (sources.map make).mapM f = .ok (sources.map read) := by
  rw [mapM_eq_ok_iff, List.forall₂_map_left_iff, List.forall₂_map_right_iff, List.forall₂_same]
  exact opens

/-- Whatever holds of each entry and what it opens to, relates a view of the entries to one of the
results. -/
theorem map_of_mapM {γ : Type} {view : β → γ} {given : α → γ}
    (opened : entries.mapM f = .ok results)
    (same : ∀ a ∈ entries, ∀ b, f a = .ok b → view b = given a) :
    results.map view = entries.map given := by
  induction entries generalizing results with
  | nil =>
    cases opened
    rfl
  | cons a entries ih =>
    obtain ⟨b, rest, first, later, rfl⟩ := mapM_cons_eq_ok_iff.1 opened
    rw [List.map_cons, List.map_cons, same a List.mem_cons_self b first,
      ih later fun other mem => same other (List.mem_cons_of_mem _ mem)]

/-- Whatever is opened comes from an entry. -/
theorem mem_of_mapM (opened : entries.mapM f = .ok results) {b : β} (mem : b ∈ results) :
    ∃ a ∈ entries, f a = .ok b := by
  induction entries generalizing results with
  | nil =>
    cases opened
    cases mem
  | cons a entries ih =>
    obtain ⟨first, rest, opens, later, rfl⟩ := mapM_cons_eq_ok_iff.1 opened
    rcases List.mem_cons.1 mem with rfl | mem
    · exact ⟨a, List.mem_cons_self, opens⟩
    · obtain ⟨other, there, opens⟩ := ih later mem
      exact ⟨other, List.mem_cons_of_mem _ there, opens⟩

end

theorem inPart_eq_ok_iff {α : Type} {part : Part} {x : Except SealingError α} {a : α} :
    SealingError.inPart part x = .ok a ↔ x = .ok a := by
  cases x <;> simp [SealingError.inPart]

theorem mapError_eq_ok_iff {ε δ α : Type} {f : ε → δ} {x : Except ε α} {a : α} :
    x.mapError f = .ok a ↔ x = .ok a := by
  cases x <;> simp [Except.mapError]

namespace GroupClient

variable {client : GroupClient}

/-! ### Presentations and identities -/

/-- With a presentation, the ciphertexts next to it are not looked at. -/
theorem openPerson_of_presented {presentation : Bytes} (presented : presentation ≠ [])
    (userId profileKey : Bytes) :
    client.openPerson userId profileKey presentation = client.openPresentation presentation := by
  have some : ¬ presentation.isEmpty = true := fun empty => presented (List.isEmpty_iff.1 empty)
  rw [openPerson, if_neg some]

/-- A presentation is opened if it verifies and both of its ciphertexts can be read. -/
theorem openPresentation_eq_ok_iff {bytes : Bytes} {person : Person} :
    client.openPresentation bytes = .ok person ↔ ∃ shown, Presentation.ofBytes bytes = .ok shown
      ∧ shown.verify client.curve client.publicParams = .ok ()
      ∧ client.keys.openIdentity shown.identity = .ok (.aci person.aci)
      ∧ client.keys.openProfileKey shown.profileKey person.aci = .ok person.profileKey := by
  rw [openPresentation]
  simp only [bind_eq_ok_iff, inPart_eq_ok_iff, mapError_eq_ok_iff]
  constructor
  · rintro ⟨⟨shown, id⟩, ⟨found, parsed, ⟨⟩, verified, other, identity, same⟩, later⟩
    cases same
    cases id with
    | aci aci =>
      -- of an account the profile key is read next
      obtain ⟨profileKey, key, same⟩ := bind_eq_ok_iff.1 later
      cases same
      exact ⟨shown, parsed, verified, identity, inPart_eq_ok_iff.1 key⟩
    | pni pni => cases later
  · rintro ⟨shown, parsed, verified, identity, key⟩
    refine ⟨(shown, .aci person.aci), ⟨shown, parsed, (), verified, _, identity, rfl⟩, ?_⟩
    exact bind_eq_ok_iff.2 ⟨_, inPart_eq_ok_iff.2 key, rfl⟩

/-- A presentation of someone whose identity and profile key can be read is opened. -/
theorem openPresentation_toBytes {presentation : Presentation} {aci : Uuid}
    {profileKey : ProfileKey}
    (verified : presentation.verify client.curve client.publicParams = .ok ())
    (identity : client.keys.openIdentity presentation.identity = .ok (.aci aci))
    (key : client.keys.openProfileKey presentation.profileKey aci = .ok profileKey) :
    client.openPresentation presentation.toBytes = .ok ⟨aci, profileKey⟩ :=
  openPresentation_eq_ok_iff.2
    ⟨presentation, presentation.ofBytes_toBytes, verified, identity, key⟩

theorem require_eq_ok_iff {α : Type} {part : Part} {given : Option α} {a : α} :
    require part given = .ok a ↔ given = some a := by
  cases given <;> simp [require]

theorem require_some_bind {α β : Type} {part : Part} {a : α} {f : α → Except ClientError β} :
    (require part (some a) >>= f) = f a := rfl

theorem openIdentity_eq_ok_iff {part : Part} {bytes : Bytes} {id : ServiceId} :
    client.openIdentity part bytes = .ok id ↔ (client.keys.sealIdentity id).toList = bytes := by
  rw [openIdentity, inPart_eq_ok_iff, bind_eq_ok_iff]
  constructor
  · rintro ⟨ciphertext, sized, read⟩
    rw [Keyring.openIdentity_eq_ok_iff.1 read]
    exact fixedSize_eq_ok_iff.1 sized
  · intro sealed
    exact ⟨_, fixedSize_eq_ok_iff.2 sealed, client.keys.openIdentity_sealIdentity id⟩

theorem openIdentity_sealIdentity (client : GroupClient) (part : Part) (id : ServiceId) :
    client.openIdentity part (client.keys.sealIdentity id).toList = .ok id :=
  openIdentity_eq_ok_iff.2 rfl

theorem openAci_eq_ok_iff {part : Part} {bytes : Bytes} {aci : Uuid} :
    client.openAci part bytes = .ok aci ↔
      (client.keys.sealIdentity (.aci aci)).toList = bytes := by
  rw [openAci, bind_eq_ok_iff]
  constructor
  · -- whoever has another kind of identity is not an account
    rintro ⟨id | id, opened, same⟩
    · cases same
      exact openIdentity_eq_ok_iff.1 opened
    · cases same
  · intro sealed
    exact ⟨.aci aci, openIdentity_eq_ok_iff.2 sealed, rfl⟩

theorem openAci_sealIdentity (client : GroupClient) (part : Part) (aci : Uuid) :
    client.openAci part (client.keys.sealIdentity (.aci aci)).toList = .ok aci :=
  openAci_eq_ok_iff.2 rfl

/-- Without a presentation, a person is read from the two ciphertexts that encryption makes. -/
theorem openPerson_nil_eq_ok_iff {userId profileKey : Bytes} {person : Person} :
    client.openPerson userId profileKey [] = .ok person ↔
      (client.keys.sealIdentity (.aci person.aci)).toList = userId
        ∧ (client.keys.sealProfileKey person.profileKey person.aci).toList = profileKey := by
  simp only [openPerson, List.isEmpty_nil, if_true, bind_eq_ok_iff, inPart_eq_ok_iff]
  constructor
  · rintro ⟨aci, found, key, ⟨ciphertext, sized, read⟩, same⟩
    cases same
    refine ⟨openAci_eq_ok_iff.1 found, ?_⟩
    rw [Keyring.openProfileKey_eq_ok_iff.1 read]
    exact fixedSize_eq_ok_iff.1 sized
  · rintro ⟨identity, key⟩
    exact ⟨_, openAci_eq_ok_iff.2 identity, _, ⟨_, fixedSize_eq_ok_iff.2 key,
      client.keys.openProfileKey_sealProfileKey _ _⟩, rfl⟩

/-- A person is read from the two ciphertexts that a presentation holds. -/
theorem openPerson_sealed (client : GroupClient) (aci : Uuid) (key : ProfileKey) :
    client.openPerson (client.keys.sealIdentity (.aci aci)).toList
      (client.keys.sealProfileKey key aci).toList [] = .ok ⟨aci, key⟩ :=
  openPerson_nil_eq_ok_iff.2 ⟨rfl, rfl⟩

/-- A ciphertext of the right length is read as the identity behind it, or as nobody. -/
theorem openIdentityOrUnknown_toList (client : GroupClient) (ciphertext : IdentityCiphertext) :
    (client.openIdentityOrUnknown ciphertext.toList).outcome =
      .ok (match client.keys.openIdentity ciphertext with
        | .ok id => id.toBinary
        | .error _ => []) := by
  rw [openIdentityOrUnknown, Octets.isEmpty_toList, fixedSize_toList]
  simp only [Bool.false_eq_true, if_false]
  cases client.keys.openIdentity ciphertext <;> rfl

theorem openIdentityOrUnknown_sealIdentity (client : GroupClient) (id : ServiceId) :
    (client.openIdentityOrUnknown (client.keys.sealIdentity id).toList).outcome =
      .ok id.toBinary := by
  rw [openIdentityOrUnknown_toList, Keyring.openIdentity_sealIdentity]

/-! ### Actions and the change they decrypt to -/

/-- Slot by slot, actions decrypt to a change, whoever its editor is. -/
structure Opens (client : GroupClient) (actions : Sealed.Actions) (change : Change) : Prop where
  revision : actions.revision = change.revision
  newMembers : (actions.newMembers.mapM fun entry => do
    client.openMember actions.revision (← require .addedMember entry.added)) = .ok change.newMembers
  removedMembers : (actions.removedMembers.mapM fun entry => do
    return (← client.openAci .removedMember entry.userId).toList) = .ok change.removedMembers
  roleChanges : (actions.roleChanges.mapM fun entry => do
    return RoleChange.mk (← client.openAci .changedMember entry.userId).toList entry.role) =
      .ok change.roleChanges
  profileKeyChanges : actions.profileKeyChanges.mapM client.openProfileKeyChange =
    .ok change.profileKeyChanges
  newInvites : (actions.newInvites.mapM fun entry => do
    (client.openInvite (← require .addedInvite entry.added)).outcome) = .ok change.newInvites
  revokedInvites : (actions.revokedInvites.mapM fun entry => do
    return Revocation.mk (← (client.openIdentityOrUnknown entry.userId).outcome) entry.userId) =
      .ok change.revokedInvites
  acceptedInvites : actions.acceptedInvites.mapM (client.openAcceptance actions.revision) =
    .ok change.acceptedInvites
  title : (actions.title.mapM fun entry => do
    return { value := ← client.keys.openTitle entry.content } : Noted ClientError _).outcome =
      .ok change.title
  avatar : (actions.avatar.map fun entry => { value := entry.location }) = change.avatar
  timer : (actions.timer.mapM fun entry => do
    return { duration := ← client.keys.openTimer entry.content } : Noted ClientError _).outcome =
      .ok change.timer
  attributesAccess : (actions.attributesAccess.map (·.access)).getD .unknown =
    change.attributesAccess
  membersAccess : (actions.membersAccess.map (·.access)).getD .unknown = change.membersAccess
  inviteLinkAccess : (actions.inviteLinkAccess.map (·.access)).getD .unknown =
    change.inviteLinkAccess
  newRequests : (actions.newRequests.mapM fun entry => do
    client.openRequest (← require .addedRequest entry.added)) = .ok change.newRequests
  refusedRequests : (actions.refusedRequests.mapM fun entry => do
    return (← client.openAci .refusedRequest entry.userId).toList) = .ok change.refusedRequests
  approvedRequests : (actions.approvedRequests.mapM fun entry => do
    return Approval.mk (← client.openAci .approvedRequest entry.userId).toList entry.role) =
      .ok change.approvedRequests
  linkPassword : (actions.linkPassword.map (·.password)).getD [] = change.linkPassword
  description : (actions.description.mapM fun entry => do
    return { value := ← client.keys.openDescription entry.content } : Noted ClientError _).outcome =
      .ok change.description
  announcements : (actions.announcementsOnly.map (.ofBool ·.announcementsOnly)).getD .unknown =
    change.announcements
  newBans : (actions.newBans.mapM fun entry => do
    (client.openBan (← require .addedBan entry.added)).outcome) = .ok change.newBans
  liftedBans : (actions.liftedBans.mapM fun entry => do
    return { serviceId := ← (client.openIdentityOrUnknown entry.userId).outcome : Ban }) =
      .ok change.liftedBans
  acceptedPniInvites : actions.acceptedPniInvites.mapM (client.openPniAcceptance actions.revision) =
    .ok change.acceptedPniInvites

variable {actions : Sealed.Actions} {change : Change}

/-- Actions of a known source decrypt to a change if they do so slot by slot, and the editor is the
source or whoever accepted an invite to a phone number identity last. -/
theorem openActions_eq_ok_iff {source : ServiceId} :
    (client.openActions actions (some source)).outcome = .ok change ↔ client.Opens actions change ∧
      (change.acceptedPniInvites.getLast?.map (·.aci)).getD source.toBinary = change.editor := by
  simp only [openActions, Noted.outcome_bind, Noted.outcome_mapM, Noted.outcome_lift,
    Noted.outcome_pure, bind_eq_ok_iff]
  constructor
  · -- slot after slot as they are opened, and those that are only copied in between
    rintro ⟨_, ⟨⟩, newMembers, h3, removedMembers, h4, roleChanges, h5, profileKeyChanges, h6,
      newInvites, h7, revokedInvites, h8, acceptedInvites, h9, title, h10, timer, h12,
      newRequests, h16, refusedRequests, h17, approvedRequests, h18, description, h20,
      newBans, h22, liftedBans, h23, acceptedPniInvites, h24, ⟨⟩⟩
    exact ⟨⟨rfl, h3, h4, h5, h6, h7, h8, h9, h10, rfl, h12, rfl, rfl, rfl, h16, h17, h18, rfl, h20,
      rfl, h22, h23, h24⟩, rfl⟩
  · rintro ⟨opens, editor⟩
    refine ⟨source, rfl, _, opens.newMembers, _, opens.removedMembers, _, opens.roleChanges,
      _, opens.profileKeyChanges, _, opens.newInvites, _, opens.revokedInvites,
      _, opens.acceptedInvites, _, opens.title, _, opens.timer, _, opens.newRequests,
      _, opens.refusedRequests, _, opens.approvedRequests, _, opens.description, _, opens.newBans,
      _, opens.liftedBans, _, opens.acceptedPniInvites, congrArg Except.ok ?_⟩
    rw [editor, opens.revision, opens.avatar, opens.attributesAccess, opens.membersAccess,
      opens.inviteLinkAccess, opens.linkPassword, opens.announcements]

/-- Without another source, it is the one in the actions that made the change. -/
theorem openActions_of_source {id : ServiceId}
    (source : client.openIdentity .editor actions.source = .ok id) :
    client.openActions actions none = client.openActions actions (some id) := by
  simp only [openActions, source]
  rfl

/-- From whomever actions come, what they decrypt to they do slot by slot. -/
theorem opens_of_openActions {source : Option ServiceId}
    (opened : (client.openActions actions source).outcome = .ok change) :
    client.Opens actions change := by
  cases source with
  | some id => exact (openActions_eq_ok_iff.1 opened).1
  | none =>
    -- without a source the actions name it, and it is read before the slots
    have found := opened
    rw [openActions, Noted.outcome_bind, Noted.outcome_lift, bind_eq_ok_iff] at found
    obtain ⟨id, known, -⟩ := found
    rw [openActions_of_source known] at opened
    exact (openActions_eq_ok_iff.1 opened).1

/-- Whatever the source is, actions decrypt to the change that they say, by some editor. -/
theorem Opens.openActions (opens : client.Opens actions change) (source : ServiceId) :
    ∃ editor, (client.openActions actions (some source)).outcome = .ok { change with editor } := by
  refine ⟨(change.acceptedPniInvites.getLast?.map (·.aci)).getD source.toBinary, ?_⟩
  apply openActions_eq_ok_iff.2
  exact ⟨{ opens with }, rfl⟩

end GroupClient

end SealedGroups
