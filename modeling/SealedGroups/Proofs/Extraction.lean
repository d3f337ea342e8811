import SealedGroups.Proofs.Opening

/-!
# Ciphertexts in place of presentations

Clients send presentations. The server checks them and takes the two ciphertexts out, so what it
stores and passes on holds these alone. The person behind a presentation is also the one behind its
ciphertexts, and therefore actions decrypt to the same change before and after
(`openActions_extracted`).
-/

namespace SealedGroups

namespace Sealed

/-- The two ciphertexts of a presentation in its place, if it can be read. -/
def Identity.extracted (identity : Identity) : Identity :=
  match Presentation.ofBytes identity.presentation with
  | .ok shown => { userId := shown.identity.toList, profileKey := shown.profileKey.toList }
  | .error _ => identity

def Member.identity (member : Sealed.Member) : Identity where
  presentation := member.presentation
  userId := member.userId
  profileKey := member.profileKey

def Member.extracted (member : Sealed.Member) : Sealed.Member :=
  let identity := member.identity.extracted
  { member with
    userId := identity.userId
    profileKey := identity.profileKey
    presentation := identity.presentation }

def JoinRequest.identity (request : Sealed.JoinRequest) : Identity where
  presentation := request.presentation
  userId := request.userId
  profileKey := request.profileKey

def JoinRequest.extracted (request : Sealed.JoinRequest) : Sealed.JoinRequest :=
  let identity := request.identity.extracted
  { request with
    userId := identity.userId
    profileKey := identity.profileKey
    presentation := identity.presentation }

def PniIdentity.identity (entry : PniIdentity) : Identity where
  presentation := entry.presentation
  userId := entry.userId
  profileKey := entry.profileKey

def PniIdentity.extracted (entry : PniIdentity) : PniIdentity :=
  let identity := entry.identity.extracted
  { entry with
    userId := identity.userId
    profileKey := identity.profileKey
    presentation := identity.presentation }

/-- Actions as the server passes them on. -/
def Actions.extracted (actions : Actions) : Actions :=
  { actions with
    newMembers := actions.newMembers.map fun entry =>
      { entry with added := entry.added.map Member.extracted }
    profileKeyChanges := actions.profileKeyChanges.map Identity.extracted
    acceptedInvites := actions.acceptedInvites.map Identity.extracted
    newRequests := actions.newRequests.map fun entry =>
      { entry with added := entry.added.map JoinRequest.extracted }
    acceptedPniInvites := actions.acceptedPniInvites.map PniIdentity.extracted }

end Sealed

theorem Presentation.ofBytes_nil : Presentation.ofBytes [] = .error .truncated := by
  have none : Cbor.readUntagged [] = .error .truncated := by
    rw [Cbor.readUntagged]
    rfl
  rw [Presentation.ofBytes, Cbor.readMap, none]
  rfl

/-- Entries that are replaced by others which open to the same still open to the same. -/
theorem mapM_map_of_mapM {ε α β : Type} {f : α → Except ε β} {replace : α → α}
    (same : ∀ a b, f a = .ok b → f (replace a) = .ok b) {entries : List α} {results : List β}
    (opened : entries.mapM f = .ok results) : (entries.map replace).mapM f = .ok results := by
  rw [mapM_eq_ok_iff] at opened ⊢
  exact List.forall₂_map_left_iff.2 (opened.imp same)

namespace GroupClient

variable {client : GroupClient}

/-- Whoever is found behind a presentation is found behind the ciphertexts taken out of it. -/
theorem openPerson_extracted (identity : Sealed.Identity) {person : Person}
    (opened : client.openPerson identity.userId identity.profileKey identity.presentation =
      .ok person) :
    client.openPerson identity.extracted.userId identity.extracted.profileKey
      identity.extracted.presentation = .ok person := by
  rw [Sealed.Identity.extracted]
  split
  · rename_i shown parsed
    -- an empty presentation cannot be parsed, so the ciphertexts next to it were not looked at
    have presented : identity.presentation ≠ [] := by
      intro empty
      rw [empty, Presentation.ofBytes_nil] at parsed
      cases parsed
    rw [openPerson_of_presented presented] at opened
    obtain ⟨found, same, -, read, key⟩ := openPresentation_eq_ok_iff.1 opened
    cases parsed.symm.trans same
    apply openPerson_nil_eq_ok_iff.2
    rw [Keyring.openIdentity_eq_ok_iff.1 read, Keyring.openProfileKey_eq_ok_iff.1 key]
    exact ⟨rfl, rfl⟩
  · exact opened

/-! ### Entries -/

theorem openMember_extracted {revision : UInt32} {entry : Sealed.Member} {member : Member}
    (opened : client.openMember revision entry = .ok member) :
    client.openMember revision entry.extracted = .ok member := by
  obtain ⟨person, found, same⟩ := bind_eq_ok_iff.1 opened
  exact bind_eq_ok_iff.2 ⟨person, openPerson_extracted entry.identity found, same⟩

theorem openRequest_extracted {entry : Sealed.JoinRequest} {request : JoinRequest}
    (opened : client.openRequest entry = .ok request) :
    client.openRequest entry.extracted = .ok request := by
  obtain ⟨person, found, same⟩ := bind_eq_ok_iff.1 opened
  exact bind_eq_ok_iff.2 ⟨person, openPerson_extracted entry.identity found, same⟩

theorem openProfileKeyChange_extracted {entry : Sealed.Identity} {member : Member}
    (opened : client.openProfileKeyChange entry = .ok member) :
    client.openProfileKeyChange entry.extracted = .ok member := by
  obtain ⟨person, found, same⟩ := bind_eq_ok_iff.1 opened
  exact bind_eq_ok_iff.2 ⟨person, openPerson_extracted entry found, same⟩

theorem openAcceptance_extracted {revision : UInt32} {entry : Sealed.Identity} {member : Member}
    (opened : client.openAcceptance revision entry = .ok member) :
    client.openAcceptance revision entry.extracted = .ok member := by
  obtain ⟨person, found, same⟩ := bind_eq_ok_iff.1 opened
  exact bind_eq_ok_iff.2 ⟨person, openPerson_extracted entry found, same⟩

theorem openPniAcceptance_extracted {revision : UInt32} {entry : Sealed.PniIdentity}
    {member : Member} (opened : client.openPniAcceptance revision entry = .ok member) :
    client.openPniAcceptance revision entry.extracted = .ok member := by
  obtain ⟨person, found, later⟩ := bind_eq_ok_iff.1 opened
  exact bind_eq_ok_iff.2 ⟨person, openPerson_extracted entry.identity found, later⟩

/-! ### Actions -/

variable {actions : Sealed.Actions} {change : Change}

theorem Opens.extracted (opens : client.Opens actions change) :
    client.Opens actions.extracted change :=
  { opens with
    newMembers := by
      refine mapM_map_of_mapM ?_ opens.newMembers
      intro entry member opened
      obtain ⟨added, given, opened⟩ := bind_eq_ok_iff.1 opened
      rw [require_eq_ok_iff.1 given]
      exact openMember_extracted opened
    profileKeyChanges := by
      refine mapM_map_of_mapM ?_ opens.profileKeyChanges
      intro entry member opened
      exact openProfileKeyChange_extracted opened
    acceptedInvites := by
      refine mapM_map_of_mapM ?_ opens.acceptedInvites
      intro entry member opened
      exact openAcceptance_extracted opened
    newRequests := by
      refine mapM_map_of_mapM ?_ opens.newRequests
      intro entry request opened
      obtain ⟨added, given, opened⟩ := bind_eq_ok_iff.1 opened
      rw [require_eq_ok_iff.1 given]
      exact openRequest_extracted opened
    acceptedPniInvites := by
      refine mapM_map_of_mapM ?_ opens.acceptedPniInvites
      intro entry member opened
      exact openPniAcceptance_extracted opened }

/-- Actions decrypt to the same change after the server took the ciphertexts out. -/
theorem openActions_extracted {source : ServiceId}
    (opened : (client.openActions actions (some source)).outcome = .ok change) :
    (client.openActions actions.extracted (some source)).outcome = .ok change := by
  obtain ⟨opens, editor⟩ := openActions_eq_ok_iff.1 opened
  exact openActions_eq_ok_iff.2 ⟨opens.extracted, editor⟩

end GroupClient

end SealedGroups
