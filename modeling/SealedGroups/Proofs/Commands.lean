import SealedGroups.Proofs.Attributes
import SealedGroups.Proofs.Banning
import SealedGroups.Proofs.Intents

/-!
# Commands are read as they were given

Most actions can be built without a credential. A `Command` is one of these with its arguments, and
`Command.change` is what the group is to know of it: entries in the order of the arguments, under
the kind of identity that was given, and nothing in any other slot. That is what everybody reads who
holds the keys (`conveys_build`). It does not depend on the nonce that a text was encrypted under,
nor on the ban list where nobody is to be banned.

Invites are revoked by ciphertext, so an invitee who cannot be decrypted is read as nobody, next to
the ciphertext.
-/

namespace SealedGroups

/-- What can be built without a credential. Somebody is banned where nobody was banned before. -/
inductive Command where
  | setTitle (title : String)
  | setDescription (description : String)
  | setTimer (duration : UInt32)
  | setAvatar (location : String)
  | setAnnouncements (announcementsOnly : Bool)
  | setMembersAccess (access : Access)
  | setAttributesAccess (access : Access)
  | setLinkAccess (access : Access)
  | setLinkPassword (password : Bytes)
  | setLink (password : Bytes) (access : Access)
  | approve (requesters : List Uuid)
  | refuse (requesters : List Uuid) (bans : List Ban)
  | remove (members : List Uuid) (bans : List Ban)
  | leave (self : Uuid) (newAdministrators : List Uuid)
  | changeRole (aci : Uuid) (role : Role)
  | revoke (invitees : List IdentityCiphertext)
  | ban (ids : List ServiceId) (alsoRefuse : Bool)
  | unban (ids : List ServiceId)

/-- The invite that a ciphertext names, as those who hold the keys of the group read it. -/
def Keyring.revocation (keys : Keyring) (invitee : IdentityCiphertext) : Revocation where
  invitee :=
    match keys.openIdentity invitee with
    | .ok id => id.toBinary
    | .error _ => []
  ciphertext := invitee.toList

namespace Command

/-- The actions that a client builds. -/
def build (client : GroupClient) (rng : Random) : Command → Except ClientError Sealed.Actions
  | .setTitle title => (client.changeTitle title rng).1
  | .setDescription description => (client.changeDescription description rng).1
  | .setTimer duration => (client.changeTimer duration rng).1
  | .setAvatar location => .ok (.changeAvatar location)
  | .setAnnouncements announcementsOnly => .ok (.changeAnnouncements announcementsOnly)
  | .setMembersAccess access => .ok (.changeMembersAccess access)
  | .setAttributesAccess access => .ok (.changeAttributesAccess access)
  | .setLinkAccess access => .ok (.changeLinkAccess access)
  | .setLinkPassword password => .ok (.changeLinkPassword password)
  | .setLink password access => .ok (.changeLinkPasswordAndAccess password access)
  | .approve requesters => .ok (client.approveRequests requesters)
  | .refuse requesters bans => (client.refuseRequests requesters false bans).outcome
  | .remove members bans => (client.removeMembers members false bans).outcome
  | .leave self newAdministrators => .ok (client.leave self newAdministrators)
  | .changeRole aci role => .ok (client.changeRole aci role)
  | .revoke invitees => .ok (.revokeInvites invitees)
  | .ban ids alsoRefuse => (client.ban ids alsoRefuse []).outcome
  | .unban ids => .ok (client.unban ids)

/-- Whether the cipher can take what is to be encrypted. -/
def fits : Command → Bool
  | .setTitle title => (Attribute.title title).fits
  | .setDescription description => (Attribute.description description).fits
  | _ => true

/-- The change that the group is to know. -/
def change (keys : Keyring) (editor : Bytes) : Command → Change
  | .setTitle title => { editor, title := some { value := title } }
  | .setDescription description => { editor, description := some { value := description } }
  | .setTimer duration => { editor, timer := some { duration } }
  | .setAvatar location => { editor, avatar := some { value := location } }
  | .setAnnouncements announcementsOnly => { editor, announcements := .ofBool announcementsOnly }
  | .setMembersAccess access => { editor, membersAccess := access }
  | .setAttributesAccess access => { editor, attributesAccess := access }
  | .setLinkAccess access => { editor, inviteLinkAccess := access }
  | .setLinkPassword password => { editor, linkPassword := password }
  | .setLink password access => { editor, linkPassword := password, inviteLinkAccess := access }
  | .approve requesters =>
    { editor, approvedRequests := requesters.map fun aci => ⟨aci.toList, .normal⟩ }
  | .refuse requesters _ => { editor, refusedRequests := requesters.map (·.toList) }
  | .remove members _ => { editor, removedMembers := members.map (·.toList) }
  | .leave self newAdministrators => {
      editor
      removedMembers := [self.toList]
      roleChanges := newAdministrators.map fun aci => ⟨aci.toList, .administrator⟩ }
  | .changeRole aci role => { editor, roleChanges := [⟨aci.toList, role⟩] }
  | .revoke invitees => { editor, revokedInvites := invitees.map keys.revocation }
  | .ban ids alsoRefuse => {
      editor
      newBans := ids.map fun id => { serviceId := id.toBinary, timestamp := 0 }
      refusedRequests := if alsoRefuse then (ids.filter (·.isAci)).map (·.toBinary) else [] }
  | .unban ids =>
    { editor, liftedBans := ids.map fun id => { serviceId := id.toBinary, timestamp := 0 } }

theorem change_ban (keys : Keyring) (editor : Bytes) (ids : List ServiceId) (alsoRefuse : Bool) :
    (ban ids alsoRefuse).change keys editor = .ofBans editor
      ((if alsoRefuse then ids.filter (·.isAci) else []).map ServiceId.toBinary)
      (ids.map ServiceId.toBinary) [] := by
  simp only [change, Change.ofBans, List.map_map]
  cases alsoRefuse <;> rfl

theorem change_unban (keys : Keyring) (editor : Bytes) (ids : List ServiceId) :
    (unban ids).change keys editor = .ofBans editor [] [] (ids.map ServiceId.toBinary) := by
  simp only [change, Change.ofBans, List.map_map]
  rfl

end Command

/-- Of an invite that was made with the keys, the invitee is known. -/
theorem Keyring.revocation_sealIdentity (keys : Keyring) (id : ServiceId) :
    keys.revocation (keys.sealIdentity id) =
      { invitee := id.toBinary, ciphertext := (keys.sealIdentity id).toList } := by
  rw [revocation, openIdentity_sealIdentity]

namespace GroupClient

variable {client : GroupClient}

/-! ### Entries that name accounts -/

/-- Accounts that are named are read in their order. -/
theorem openAci_targets (client : GroupClient) (part : Part) (acis : List Uuid) :
    ((acis.map (client.target <| .aci ·)).mapM fun entry => do
      return (← client.openAci part entry.userId).toList) = .ok (acis.map (·.toList)) := by
  apply mapM_map_eq_ok
  intro aci _
  rw [target, openAci_sealIdentity]
  rfl

/-- Accounts that get a role are read in their order, with the role. -/
theorem openAci_grants {α : Type} (client : GroupClient) (part : Part) (make : Bytes → Role → α)
    (role : Role) (acis : List Uuid) :
    ((acis.map (client.grant · role)).mapM fun entry => do
      return make (← client.openAci part entry.userId).toList entry.role) =
        .ok (acis.map fun aci => make aci.toList role) := by
  apply mapM_map_eq_ok
  intro aci _
  rw [grant, openAci_sealIdentity]
  rfl

/-! ### Attributes that are encrypted -/

/-- Whatever the nonce, actions that hold an encrypted attribute say what they open to. -/
theorem conveys_attribute {content : Attribute} (fits : content.fits = true) {rng : Random}
    {actions : Bytes → Sealed.Actions} {source : ServiceId} {change : Change}
    (editor : (change.acceptedPniInvites.getLast?.map (·.aci)).getD source.toBinary = change.editor)
    (opens : ∀ blob, (client.keys.sealAttribute content rng).1 = .ok blob →
      client.Opens (actions blob) change) :
    client.Conveys ((client.sealAttribute content rng).1.map actions) source change := by
  obtain ⟨blob, made⟩ := (client.keys.exists_sealAttribute_iff content rng).2 fits
  have built : (client.sealAttribute content rng).1.map actions = .ok (actions blob) := by
    simp only [sealAttribute, made]
    rfl
  exact conveys_of_opens built (opens blob made) editor

theorem sealAttribute_map_of_not_fits {α : Type} {content : Attribute}
    (long : ¬ content.fits = true) (rng : Random) (make : Bytes → α) :
    (client.sealAttribute content rng).1.map make = .error (.sealing (.aead .encrypt)) := by
  simp only [sealAttribute, Keyring.sealAttribute_of_not_fits long]
  rfl

/-! ### Command by command -/

theorem conveys_build_of_fits {command : Command} (fits : command.fits = true) (source : ServiceId)
    (rng : Random) :
    client.Conveys (command.build client rng) source
      (command.change client.keys source.toBinary) := by
  cases command with
  | setTitle title =>
    refine conveys_attribute fits rfl fun blob made => ?_
    constructor
    case title =>
      simp only [Command.change, Option.mapM_some, Keyring.openTitle_of_sealAttribute made]
      rfl
    all_goals rfl
  | setDescription description =>
    refine conveys_attribute fits rfl fun blob made => ?_
    constructor
    case description =>
      simp only [Command.change, Option.mapM_some, Keyring.openDescription_of_sealAttribute made]
      rfl
    all_goals rfl
  | setTimer duration =>
    refine conveys_attribute (Attribute.fits_timer duration) rfl fun blob made => ?_
    constructor
    case timer =>
      simp only [Command.change, Option.mapM_some, Keyring.openTimer_of_sealAttribute made]
      rfl
    all_goals rfl
  -- these slots are copied as they are
  | setAvatar _ | setAnnouncements _ | setMembersAccess _ | setAttributesAccess _ | setLinkAccess _
  | setLinkPassword _ | setLink _ _ =>
    refine conveys_of_opens rfl ?_ rfl
    constructor <;> rfl
  | approve requesters =>
    refine conveys_of_opens rfl ?_ rfl
    constructor
    case approvedRequests => exact client.openAci_grants _ Approval.mk .normal requesters
    all_goals rfl
  | refuse requesters bans =>
    refine conveys_of_opens rfl ?_ rfl
    constructor
    case refusedRequests => exact client.openAci_targets _ requesters
    all_goals rfl
  | remove members bans =>
    refine conveys_of_opens rfl ?_ rfl
    constructor
    case removedMembers => exact client.openAci_targets _ members
    all_goals rfl
  | leave self newAdministrators =>
    refine conveys_of_opens rfl ?_ rfl
    constructor
    case removedMembers => exact client.openAci_targets _ [self]
    case roleChanges =>
      exact client.openAci_grants _ RoleChange.mk .administrator newAdministrators
    all_goals rfl
  | changeRole aci role =>
    refine conveys_of_opens rfl ?_ rfl
    constructor
    case roleChanges => exact client.openAci_grants _ RoleChange.mk role [aci]
    all_goals rfl
  | revoke invitees =>
    refine conveys_of_opens rfl ?_ rfl
    constructor
    case revokedInvites =>
      apply mapM_map_eq_ok
      intro invitee _
      rw [openIdentityOrUnknown_toList]
      rfl
    all_goals rfl
  | ban ids alsoRefuse =>
    rw [Command.change_ban]
    refine conveys_of_opens (client.ban_outcome ids alsoRefuse []) ?_ rfl
    -- with nobody known to be banned, nobody is evicted
    have none : ((oldestFirst []).filterMap Ban.id?).take (client.spacesToFree [] ids.length) =
        [] := by
      simp [oldestFirst]
    rw [none]
    exact client.opens_ofBans _ (fun _ => isAci_of_mem_refused) ids []
  | unban ids =>
    rw [Command.change_unban]
    refine conveys_of_opens rfl ?_ rfl
    exact client.opens_ofBans _ (List.forall_mem_nil _) [] ids

/-- A text that is too long is not sent. -/
theorem build_of_not_fits {command : Command} (long : ¬ command.fits = true) (rng : Random) :
    command.build client rng = .error (.sealing (.aead .encrypt)) := by
  cases command with
  | setTitle title => exact sealAttribute_map_of_not_fits long rng _
  | setDescription description => exact sealAttribute_map_of_not_fits long rng _
  | _ => exact absurd rfl long

/-- Every command can be built, and is read as the change that it was meant to make, by whoever the
source is; except for a text too long to be encrypted, with which nothing is built. -/
theorem conveys_build (client : GroupClient) (command : Command) (source : ServiceId)
    (rng : Random) :
    if command.fits then
      client.Conveys (command.build client rng) source (command.change client.keys source.toBinary)
    else command.build client rng = .error (.sealing (.aead .encrypt)) := by
  split
  · rename_i fits
    exact conveys_build_of_fits fits source rng
  · rename_i long
    exact build_of_not_fits long rng

end GroupClient

end SealedGroups
