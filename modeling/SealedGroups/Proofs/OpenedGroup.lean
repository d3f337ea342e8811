import SealedGroups.Proofs.Identity
import SealedGroups.Curve.Ristretto
import SealedGroups.Proofs.Opening

/-!
# What a decrypted group is made of

A group on the server decrypts if all of its parts do (`openGroup_eq_ok_iff`), and its lists keep
their entries in their places. An identity is read from one ciphertext only, so whoever the server
keeps under different ciphertexts is different people in the snapshot too, whatever bytes the server
sends: those that hide nobody are refused, or stay without a name among the invites
(`openGroup_invariant`).
-/

namespace SealedGroups

/-! ### Ciphertexts of identities -/

/-- The ciphertext of an identity that is given by its binary form. -/
def Keyring.sealBinary (keys : Keyring) (id : Bytes) : Bytes :=
  match ServiceId.ofBinary id with
  | .ok id => (keys.sealIdentity id).toList
  | .error _ => []

@[simp] theorem Keyring.sealBinary_toBinary (keys : Keyring) (id : ServiceId) :
    keys.sealBinary id.toBinary = (keys.sealIdentity id).toList := by
  rw [sealBinary, ServiceId.ofBinary_toBinary]

namespace Sealed

/-- The ciphertext of who is invited, if it is there. -/
def Invite.userId (invite : Invite) : Bytes :=
  (invite.member.getD {}).userId

/-- The role that an invite gives. -/
def Invite.role (invite : Invite) : Role :=
  if (invite.member.getD {}).role = .administrator then .administrator else .normal

/-- The ciphertexts of everyone in a group. -/
def Group.userIds (group : Group) : List Bytes :=
  group.members.map (·.userId) ++ group.invites.map (·.userId) ++ group.requests.map (·.userId)

/-- A group as the server stores it: it took the ciphertexts out of the presentations. -/
structure Group.Extracted (group : Group) : Prop where
  members : ∀ member ∈ group.members, member.presentation = []
  requests : ∀ request ∈ group.requests, request.presentation = []

end Sealed

namespace GroupClient

variable {client other : GroupClient}

/-! ### Entries -/

/-- Where an identity need not decrypt but does, it does so from its one ciphertext. -/
theorem sealing_of_openIdentityOrUnknown {bytes id : Bytes} (readable : id ≠ [])
    (opened : (client.openIdentityOrUnknown bytes).outcome = .ok id) :
    ∃ identity : ServiceId, identity.toBinary = id
      ∧ (client.keys.sealIdentity identity).toList = bytes := by
  unfold openIdentityOrUnknown at opened
  split at opened
  · -- nothing is read from no bytes
    cases opened
    exact absurd rfl readable
  · split at opened
    · cases opened
    · rename_i ciphertext sized
      split at opened
      · rename_i identity read
        cases opened
        refine ⟨identity, rfl, ?_⟩
        rw [Keyring.openIdentity_eq_ok_iff.1 read]
        exact fixedSize_eq_ok_iff.1 sized
      · -- nor from a ciphertext that does not open
        cases opened
        exact absurd rfl readable

/-- Identities are read in the same way by all who have the keys of the group. -/
theorem openIdentityOrUnknown_congr (keys : other.keys = client.keys) (bytes : Bytes) :
    other.openIdentityOrUnknown bytes = client.openIdentityOrUnknown bytes := by
  rw [openIdentityOrUnknown, openIdentityOrUnknown, keys]

theorem of_openMember {revision : UInt32} {entry : Sealed.Member} {member : Member}
    (extracted : entry.presentation = [])
    (opened : client.openMember revision entry = .ok member) :
    ∃ aci : Uuid, member.aci = aci.toList ∧
      (client.keys.sealIdentity (.aci aci)).toList = entry.userId := by
  rw [openMember, extracted] at opened
  obtain ⟨person, found, same⟩ := bind_eq_ok_iff.1 opened
  cases same
  exact ⟨person.aci, rfl, (openPerson_nil_eq_ok_iff.1 found).1⟩

theorem of_openRequest {entry : Sealed.JoinRequest} {request : JoinRequest}
    (extracted : entry.presentation = []) (opened : client.openRequest entry = .ok request) :
    ∃ aci : Uuid, request.aci = aci.toList ∧
      (client.keys.sealIdentity (.aci aci)).toList = entry.userId := by
  rw [openRequest, extracted] at opened
  obtain ⟨person, found, same⟩ := bind_eq_ok_iff.1 opened
  cases same
  exact ⟨person.aci, rfl, (openPerson_nil_eq_ok_iff.1 found).1⟩

/-- An invite is read if both identities are, and keeps the ciphertext of who is invited. -/
theorem openInvite_eq_ok_iff {entry : Sealed.Invite} {invite : Invite} :
    (client.openInvite entry).outcome = .ok invite ↔
      (client.openIdentityOrUnknown entry.userId).outcome = .ok invite.invitee
        ∧ (client.openIdentityOrUnknown entry.inviter).outcome = .ok invite.inviter
        ∧ entry.role = invite.role ∧ entry.timestamp = invite.timestamp
        ∧ entry.userId = invite.ciphertext := by
  simp only [openInvite, Noted.outcome_bind, bind_eq_ok_iff, Noted.outcome_pure]
  constructor
  · -- the parts of the result are read off one after the other
    rintro ⟨invitee, read, inviter, read', same⟩
    cases same
    exact ⟨read, read', rfl, rfl, rfl⟩
  · rintro ⟨read, read', role, timestamp, ciphertext⟩
    refine ⟨_, read, _, read', congrArg Except.ok ?_⟩
    rw [← Sealed.Invite.role, role, timestamp, ← Sealed.Invite.userId, ciphertext]

/-- The ciphertext that an invite keeps is the one that the invited was read from. -/
theorem read_of_openInvite {entry : Sealed.Invite} {invite : Invite}
    (opened : (client.openInvite entry).outcome = .ok invite) :
    (client.openIdentityOrUnknown invite.ciphertext).outcome = .ok invite.invitee := by
  obtain ⟨read, -, -, -, ciphertext⟩ := openInvite_eq_ok_iff.1 opened
  rwa [← ciphertext]

/-! ### Groups -/

/-- Part by part, a group on the server decrypts to a snapshot. -/
structure OpensGroup (client : GroupClient) (group : Sealed.Group) (snapshot : Snapshot) :
    Prop where
  members : (group.members.mapM fun entry => client.openMember entry.joinedAt entry) =
    .ok snapshot.members
  invites : (group.invites.mapM fun entry => (client.openInvite entry).outcome) =
    .ok snapshot.invites
  requests : group.requests.mapM client.openRequest = .ok snapshot.requests
  bans : (group.bans.mapM fun entry => (client.openBan entry).outcome) = .ok snapshot.bans
  title : (client.keys.openTitle group.title : Noted ClientError _).outcome = .ok snapshot.title
  avatar : group.avatar = snapshot.avatar
  timer : (do return some { duration := ← client.keys.openTimer group.timer } :
    Noted ClientError (Option Timer)).outcome = .ok snapshot.timer
  access : group.access = snapshot.access
  revision : group.revision = snapshot.revision
  linkPassword : group.linkPassword = snapshot.linkPassword
  description : (client.keys.openDescription group.description : Noted ClientError _).outcome =
    .ok snapshot.description
  announcements : .ofBool group.announcementsOnly = snapshot.announcements

theorem openGroup_eq_ok_iff {group : Sealed.Group} {snapshot : Snapshot} :
    (client.openGroup group).outcome = .ok snapshot ↔ client.OpensGroup group snapshot := by
  simp only [openGroup, Noted.outcome_bind, Noted.outcome_mapM, Noted.outcome_lift,
    Noted.outcome_pure, bind_eq_ok_iff]
  constructor
  · rintro ⟨members, h1, invites, h2, requests, h3, bans, h4, title, h5, timer, h6, description, h7,
      ⟨⟩⟩
    refine ⟨h1, h2, h3, h4, h5, rfl, ?_, rfl, rfl, rfl, h7, rfl⟩
    rw [Noted.outcome_bind, h6]
    rfl
  · intro opens
    have timer := opens.timer
    rw [Noted.outcome_bind] at timer
    -- the timer is the one field that is worked on after it was opened
    obtain ⟨duration, read, set⟩ := bind_eq_ok_iff.1 timer
    refine ⟨_, opens.members, _, opens.invites, _, opens.requests, _, opens.bans, _, opens.title,
      duration, read, _, opens.description, congrArg Except.ok ?_⟩
    rw [opens.avatar, opens.access, opens.revision, opens.linkPassword, opens.announcements,
      Except.ok.inj set]

section

variable {group : Sealed.Group} {snapshot : Snapshot}

/-- Whoever is known by name in a decrypted group has a ciphertext of their own on the server. -/
theorem sealBinary_sublist (extracted : group.Extracted)
    (opens : client.OpensGroup group snapshot) :
    (snapshot.identities.map client.keys.sealBinary).Sublist group.userIds := by
  -- the ciphertext of a member is the one way to seal their account
  have members : snapshot.memberAcis.map client.keys.sealBinary = group.members.map (·.userId) := by
    rw [Snapshot.memberAcis, List.map_map]
    apply map_of_mapM opens.members
    intro entry mem member opened
    obtain ⟨aci, same, sealed⟩ := of_openMember (extracted.members entry mem) opened
    rw [Function.comp_apply, same, ← sealed]
    exact client.keys.sealBinary_toBinary (.aci aci)
  have requests : snapshot.requesters.map client.keys.sealBinary =
      group.requests.map (·.userId) := by
    rw [Snapshot.requesters, List.map_map]
    apply map_of_mapM opens.requests
    intro entry mem request opened
    obtain ⟨aci, same, sealed⟩ := of_openRequest (extracted.requests entry mem) opened
    rw [Function.comp_apply, same, ← sealed]
    exact client.keys.sealBinary_toBinary (.aci aci)
  have ciphertexts : snapshot.invites.map (·.ciphertext) = group.invites.map (·.userId) :=
    map_of_mapM opens.invites fun _ _ _ opened => (openInvite_eq_ok_iff.1 opened).2.2.2.2.symm
  have readable : (snapshot.invitees.filter (!·.isEmpty)).map client.keys.sealBinary =
      (snapshot.invites.filter (!·.invitee.isEmpty)).map (·.ciphertext) := by
    rw [Snapshot.invitees, List.filter_map, List.map_map]
    apply List.map_congr_left
    intro invite mem
    obtain ⟨there, known⟩ := List.mem_filter.1 mem
    obtain ⟨entry, -, opened⟩ := mem_of_mapM opens.invites there
    obtain ⟨identity, same, sealed⟩ :=
      sealing_of_openIdentityOrUnknown (by simpa using known) (read_of_openInvite opened)
    rw [Function.comp_apply, ← same, client.keys.sealBinary_toBinary, sealed]
  rw [Snapshot.identities, List.map_append, List.map_append, members, readable, requests,
    Sealed.Group.userIds, ← ciphertexts]
  exact ((List.Sublist.refl _).append (List.filter_sublist.map _)).append (List.Sublist.refl _)

/-- Nobody is known by a name that is no identity. -/
theorem exists_identity_of_mem (extracted : group.Extracted)
    (opens : client.OpensGroup group snapshot) {id : Bytes} (mem : id ∈ snapshot.identities) :
    ∃ identity : ServiceId, identity.toBinary = id := by
  rcases Snapshot.mem_identities.1 mem with mem | ⟨mem, readable⟩ | mem
  · obtain ⟨member, there, rfl⟩ := List.mem_map.1 mem
    obtain ⟨entry, stored, opened⟩ := mem_of_mapM opens.members there
    obtain ⟨aci, same, -⟩ := of_openMember (extracted.members entry stored) opened
    exact ⟨.aci aci, same.symm⟩
  · obtain ⟨invite, there, rfl⟩ := List.mem_map.1 mem
    obtain ⟨entry, -, opened⟩ := mem_of_mapM opens.invites there
    obtain ⟨identity, same, -⟩ :=
      sealing_of_openIdentityOrUnknown readable (read_of_openInvite opened)
    exact ⟨identity, same⟩
  · obtain ⟨request, there, rfl⟩ := List.mem_map.1 mem
    obtain ⟨entry, stored, opened⟩ := mem_of_mapM opens.requests there
    obtain ⟨aci, same, -⟩ := of_openRequest (extracted.requests entry stored) opened
    exact ⟨.aci aci, same.symm⟩

/-- If the server keeps no ciphertext twice, nobody is in the decrypted group twice. -/
theorem nodup_identities (extracted : group.Extracted) (opens : client.OpensGroup group snapshot)
    (distinct : (group.userIds.filter (!·.isEmpty)).Nodup) : snapshot.identities.Nodup := by
  have sealed : ∀ bytes ∈ snapshot.identities.map client.keys.sealBinary,
      (!bytes.isEmpty) = true := by
    intro bytes mem
    obtain ⟨id, known, rfl⟩ := List.mem_map.1 mem
    obtain ⟨identity, rfl⟩ := exists_identity_of_mem extracted opens known
    rw [Keyring.sealBinary_toBinary, Octets.isEmpty_toList]
    rfl
  have sub := (sealBinary_sublist extracted opens).filter fun bytes => !bytes.isEmpty
  rw [List.filter_eq_self.2 sealed] at sub
  exact (distinct.sublist sub).of_map _

end

/-- Two snapshots that were decrypted with the same keys tell the same of a ciphertext, and give the
same ciphertext to someone they can name. -/
theorem ciphertext_eq_iff_of_opensGroup (keys : other.keys = client.keys)
    {first second : Sealed.Group} {before later : Snapshot}
    (opens : client.OpensGroup first before) (others : other.OpensGroup second later)
    {i j : Invite} (mem : i ∈ before.invites) (mem' : j ∈ later.invites) :
    (i.ciphertext = j.ciphertext → i.invitee = j.invitee)
      ∧ (i.invitee = j.invitee → i.invitee ≠ [] → i.ciphertext = j.ciphertext) := by
  obtain ⟨_, -, opened⟩ := mem_of_mapM opens.invites mem
  obtain ⟨_, -, opened'⟩ := mem_of_mapM others.invites mem'
  have read := read_of_openInvite opened
  have read' := read_of_openInvite opened'
  -- one secret, so both snapshots read the same in the same bytes
  rw [openIdentityOrUnknown_congr keys] at read'
  constructor
  · intro same
    rw [same, read'] at read
    exact (Except.ok.inj read).symm
  · intro same readable
    obtain ⟨identity, name, sealed⟩ := sealing_of_openIdentityOrUnknown readable read
    obtain ⟨identity', name', sealed'⟩ := sealing_of_openIdentityOrUnknown (same ▸ readable) read'
    -- an identity has one ciphertext, wherever it is read
    have one : identity = identity' :=
      ServiceId.toBinary_injective (name.trans (same.trans name'.symm))
    rw [← sealed, ← sealed', one]

/-- What the server sends is decrypted entry by entry in its order. Members and requesters are known
by the sixteen bytes of an account. If no ciphertext is there twice, nobody is in the snapshot
twice. And in all snapshots under the same keys, ciphertexts of invites and the names of the invited
go together. -/
theorem openGroup_invariant {group : Sealed.Group} {snapshot : Snapshot}
    (extracted : group.Extracted) (distinct : (group.userIds.filter (!·.isEmpty)).Nodup)
    (opened : (client.openGroup group).outcome = .ok snapshot) :
    (∀ id ∈ snapshot.memberAcis ++ snapshot.requesters, id.length = 16)
      ∧ snapshot.identities.Nodup
      ∧ (List.Forall₂ (fun entry member => client.openMember entry.joinedAt entry = .ok member)
          group.members snapshot.members
        ∧ List.Forall₂ (fun entry invite => (client.openInvite entry).outcome = .ok invite)
          group.invites snapshot.invites
        ∧ List.Forall₂ (fun entry request => client.openRequest entry = .ok request)
          group.requests snapshot.requests
        ∧ List.Forall₂ (fun entry ban => (client.openBan entry).outcome = .ok ban)
          group.bans snapshot.bans)
      ∧ ∀ (other : GroupClient) (stored : Sealed.Group) (later : Snapshot),
        other.keys = client.keys → (other.openGroup stored).outcome = .ok later →
        ∀ i ∈ snapshot.invites, ∀ j ∈ later.invites,
          (i.ciphertext = j.ciphertext → i.invitee = j.invitee)
            ∧ (i.invitee = j.invitee → i.invitee ≠ [] → i.ciphertext = j.ciphertext) := by
  have opens := openGroup_eq_ok_iff.1 opened
  refine ⟨?_, nodup_identities extracted opens distinct,
    ⟨mapM_eq_ok_iff.1 opens.members, mapM_eq_ok_iff.1 opens.invites,
      mapM_eq_ok_iff.1 opens.requests, mapM_eq_ok_iff.1 opens.bans⟩, ?_⟩
  · intro id mem
    rcases List.mem_append.1 mem with mem | mem
    · obtain ⟨member, there, rfl⟩ := List.mem_map.1 mem
      obtain ⟨entry, stored, opened⟩ := mem_of_mapM opens.members there
      obtain ⟨aci, same, -⟩ := of_openMember (extracted.members entry stored) opened
      rw [same, Octets.length_toList]
    · obtain ⟨request, there, rfl⟩ := List.mem_map.1 mem
      obtain ⟨entry, stored, opened⟩ := mem_of_mapM opens.requests there
      obtain ⟨aci, same, -⟩ := of_openRequest (extracted.requests entry stored) opened
      rw [same, Octets.length_toList]
  · intro other stored later keys opened' i mem j mem'
    exact ciphertext_eq_iff_of_opensGroup keys opens (openGroup_eq_ok_iff.1 opened') mem mem'

end GroupClient

namespace Sample

/-- A client that never looks at a presentation. -/
def reader : GroupClient where
  curve := Ristretto.curve
  serverKey := .replicate 32 0
  keys := groupKeys

def sealedId (id : ServiceId) : Bytes :=
  (reader.keys.sealIdentity id).toList

def sealedKey (n : Nat) : Bytes :=
  (reader.keys.sealProfileKey (profileKey n) (uuid n)).toList

/-- A group as the server stores it, with an administrator, two invites, an invite that hides
nobody, one that lost who is invited, and a request. -/
def storedGroup : Sealed.Group where
  members := [
    { userId := sealedId (.aci (uuid 1)), role := .administrator, profileKey := sealedKey 1 }]
  invites := [
    { member := some { userId := sealedId (.aci (uuid 2)), role := .administrator }
      inviter := sealedId (.aci (uuid 1)) },
    { member := some { userId := sealedId (.pni (uuid 2)) } },
    { member := some { userId := (ciphertext 3).toList } },
    {}]
  requests := [{ userId := sealedId (.aci (uuid 4)), profileKey := sealedKey 4 }]

def openedGroup : Snapshot where
  timer := some { duration := 0 }
  members := [administrator 1]
  invites := [
    { invitee := aci 2, role := .administrator, inviter := aci 1
      ciphertext := sealedId (.aci (uuid 2)) },
    { invitee := pni 2, role := .normal, ciphertext := sealedId (.pni (uuid 2)) },
    { role := .normal, ciphertext := (ciphertext 3).toList },
    { role := .normal }]
  requests := [request 4]
  announcements := .disabled

theorem openIdentity_unreadable :
    reader.keys.openIdentity (ciphertext 3) = .error .verificationFailed := by
  decide +kernel

theorem openGroup_storedGroup : (reader.openGroup storedGroup).outcome = .ok openedGroup := by
  have person : ∀ n, reader.openPerson (sealedId (.aci (uuid n))) (sealedKey n) [] =
      .ok ⟨uuid n, profileKey n⟩ := fun n => reader.openPerson_sealed (uuid n) (profileKey n)
  have readable : ∀ id, (reader.openIdentityOrUnknown (sealedId id)).outcome = .ok id.toBinary :=
    reader.openIdentityOrUnknown_sealIdentity
  -- bytes that nobody can read are stored with the third invite
  have nobody : (reader.openIdentityOrUnknown (ciphertext 3).toList).outcome = .ok [] := by
    rw [GroupClient.openIdentityOrUnknown, fixedSize_toList]
    simp only [openIdentity_unreadable]
    rfl
  have absent : (reader.openIdentityOrUnknown []).outcome = .ok [] := rfl
  apply GroupClient.openGroup_eq_ok_iff.2
  constructor
  case members =>
    refine mapM_singleton_eq_ok (b := administrator 1) ?_
    rw [GroupClient.openMember, person]
    rfl
  case invites =>
    refine mapM_eq_ok_iff.2 (.cons ?_ (.cons ?_ (.cons ?_ (.cons ?_ .nil))))
      <;> apply GroupClient.openInvite_eq_ok_iff.2
    · exact ⟨readable _, readable _, rfl, rfl, rfl⟩
    · exact ⟨readable _, absent, rfl, rfl, rfl⟩
    · exact ⟨nobody, absent, rfl, rfl, rfl⟩
    · exact ⟨absent, absent, rfl, rfl, rfl⟩
  case requests =>
    refine mapM_singleton_eq_ok (b := request 4) ?_
    rw [GroupClient.openRequest, person]
    rfl
  all_goals rfl

theorem extracted_storedGroup : storedGroup.Extracted := by
  constructor
  · intro member mem
    rw [List.mem_singleton.1 mem]
  · intro request mem
    rw [List.mem_singleton.1 mem]

/-- Nobody has two ciphertexts, and the one that hides nobody is nobody's. -/
theorem distinct_storedGroup : (storedGroup.userIds.filter (!·.isEmpty)).Nodup := by
  let before : List ServiceId := [.aci (uuid 1), .aci (uuid 2), .pni (uuid 2)]
  let later : List ServiceId := [.aci (uuid 4)]
  have all : storedGroup.userIds.filter (!·.isEmpty) =
      (before.map reader.keys.sealIdentity
        ++ ciphertext 3 :: later.map reader.keys.sealIdentity).map Octets.toList := by
    simp [before, later, storedGroup, Sealed.Group.userIds, Sealed.Invite.userId, sealedId]
  -- ids are sealed to different ciphertexts, and none of them is the unreadable one
  have nobody : ciphertext 3 ∉ (before ++ later).map reader.keys.sealIdentity := by
    intro mem
    obtain ⟨id, -, same⟩ := List.mem_map.1 mem
    have read := reader.keys.openIdentity_sealIdentity id
    rw [same, openIdentity_unreadable] at read
    cases read
  rw [all]
  apply List.Nodup.map fun _ _ => Octets.ext_toList
  rw [List.nodup_middle, ← List.map_append]
  have ids : (before ++ later).Nodup := by decide +kernel
  exact List.nodup_cons.2 ⟨nobody, ids.map reader.keys.sealIdentity_injective⟩

/-- The invariant of a group with an invite that hides nobody and one that lost who is invited. -/
theorem openGroup_invariant_sample :
    storedGroup.Extracted ∧ (storedGroup.userIds.filter (!·.isEmpty)).Nodup
      ∧ (reader.openGroup storedGroup).outcome = .ok openedGroup
      ∧ (∀ id ∈ openedGroup.memberAcis ++ openedGroup.requesters, id.length = 16)
      ∧ openedGroup.identities.Nodup ∧ openedGroup.invites.length = 4 := by
  obtain ⟨long, once, ⟨-, invites, -⟩, -⟩ := GroupClient.openGroup_invariant extracted_storedGroup
    distinct_storedGroup openGroup_storedGroup
  exact ⟨extracted_storedGroup, distinct_storedGroup, openGroup_storedGroup, long, once,
    invites.length_eq.symm⟩

end Sample

end SealedGroups
