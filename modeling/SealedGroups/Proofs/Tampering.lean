import SealedGroups.Proofs.RebasedActions
import SealedGroups.Proofs.Refusals

/-!
# Other ciphertexts in the same places

Actions that decrypt are tampered with: ciphertexts of identities are replaced, any number of them
in any places. In an invite or a ban nothing is refused but bytes of the wrong length, and the
change stays as it was, up to who is named in the entries that were hit. Where an action names a
member, someone who asks to be let in or a phone number identity, the change is refused, unless the
new bytes are the ciphertext of such an identity too (`tampering_exact`).
-/

namespace SealedGroups

/-! ### Places and replacements -/

/-- A place where entries of actions hold the ciphertext of an identity by itself. -/
inductive Place where
  | removedMember
  | changedMember
  | invitee
  | inviter
  | revokedInvite
  | refusedRequest
  | approvedRequest
  | newBan
  | liftedBan
  | invitedPni
deriving DecidableEq

/-- Bytes are a ciphertext that decrypts to an identity. -/
def Keyring.Reads (keys : Keyring) (bytes : Bytes) (id : ServiceId) : Prop :=
  ∃ sealed : IdentityCiphertext, sealed.toList = bytes ∧ keys.openIdentity sealed = .ok id

/-- Which bytes are not refused in a place. -/
def Place.Admits (keys : Keyring) (bytes : Bytes) : Place → Prop
  | .invitee | .inviter | .revokedInvite | .newBan | .liftedBan => bytes = [] ∨ bytes.length = 57
  | .removedMember | .changedMember | .refusedRequest | .approvedRequest =>
    ∃ aci : Uuid, keys.Reads bytes (.aci aci)
  | .invitedPni => ∃ pni : Uuid, keys.Reads bytes (.pni pni)

/-- Other bytes for the entry at an index. -/
structure Replacement where
  place : Place
  index : Nat
  bytes : Bytes
deriving DecidableEq

namespace Sealed

def Invite.withUserId (invite : Invite) (userId : Bytes) : Invite :=
  { invite with member := some { invite.member.getD {} with userId } }

namespace Actions

/-- How many entries have a ciphertext in a place. -/
def count (actions : Actions) : Place → Nat
  | .removedMember => actions.removedMembers.length
  | .changedMember => actions.roleChanges.length
  | .invitee | .inviter => actions.newInvites.length
  | .revokedInvite => actions.revokedInvites.length
  | .refusedRequest => actions.refusedRequests.length
  | .approvedRequest => actions.approvedRequests.length
  | .newBan => actions.newBans.length
  | .liftedBan => actions.liftedBans.length
  | .invitedPni => actions.acceptedPniInvites.length

/-- Puts other bytes into one place; nothing else changes. -/
def replace (actions : Actions) : Replacement → Actions
  | ⟨.removedMember, index, bytes⟩ =>
    { actions with
      removedMembers := actions.removedMembers.modify index ({ · with userId := bytes }) }
  | ⟨.changedMember, index, bytes⟩ =>
    { actions with roleChanges := actions.roleChanges.modify index ({ · with userId := bytes }) }
  | ⟨.invitee, index, bytes⟩ =>
    { actions with
      newInvites := actions.newInvites.modify index (⟨·.added.map (·.withUserId bytes)⟩) }
  | ⟨.inviter, index, bytes⟩ =>
    { actions with
      newInvites := actions.newInvites.modify index
        (⟨·.added.map ({ · with inviter := bytes })⟩) }
  | ⟨.revokedInvite, index, bytes⟩ =>
    { actions with
      revokedInvites := actions.revokedInvites.modify index ({ · with userId := bytes }) }
  | ⟨.refusedRequest, index, bytes⟩ =>
    { actions with
      refusedRequests := actions.refusedRequests.modify index ({ · with userId := bytes }) }
  | ⟨.approvedRequest, index, bytes⟩ =>
    { actions with
      approvedRequests := actions.approvedRequests.modify index ({ · with userId := bytes }) }
  | ⟨.newBan, index, bytes⟩ =>
    { actions with
      newBans := actions.newBans.modify index (⟨·.added.map ({ · with userId := bytes })⟩) }
  | ⟨.liftedBan, index, bytes⟩ =>
    { actions with liftedBans := actions.liftedBans.modify index ({ · with userId := bytes }) }
  | ⟨.invitedPni, index, bytes⟩ =>
    { actions with
      acceptedPniInvites := actions.acceptedPniInvites.modify index ({ · with pni := bytes }) }

def replaceAll (actions : Actions) (replacements : List Replacement) : Actions :=
  replacements.foldl replace actions

end Actions

end Sealed

namespace Change

/-- Names whoever is behind a ciphertext that was replaced, next to the ciphertext where it is kept;
nothing else changes. -/
def rename (keys : Keyring) (change : Change) : Replacement → Change
  | ⟨.removedMember, index, bytes⟩ =>
    { change with
      removedMembers := change.removedMembers.modify index fun _ => keys.nameBehind bytes }
  | ⟨.changedMember, index, bytes⟩ =>
    { change with
      roleChanges := change.roleChanges.modify index ({ · with aci := keys.nameBehind bytes }) }
  | ⟨.invitee, index, bytes⟩ =>
    { change with
      newInvites := change.newInvites.modify index
        ({ · with invitee := keys.nameBehind bytes, ciphertext := bytes }) }
  | ⟨.inviter, index, bytes⟩ =>
    { change with
      newInvites := change.newInvites.modify index ({ · with inviter := keys.nameBehind bytes }) }
  | ⟨.revokedInvite, index, bytes⟩ =>
    { change with
      revokedInvites := change.revokedInvites.modify index fun _ => ⟨keys.nameBehind bytes, bytes⟩ }
  | ⟨.refusedRequest, index, bytes⟩ =>
    { change with
      refusedRequests := change.refusedRequests.modify index fun _ => keys.nameBehind bytes }
  | ⟨.approvedRequest, index, bytes⟩ =>
    { change with
      approvedRequests := change.approvedRequests.modify index
        ({ · with aci := keys.nameBehind bytes }) }
  | ⟨.newBan, index, bytes⟩ =>
    { change with
      newBans := change.newBans.modify index ({ · with serviceId := keys.nameBehind bytes }) }
  | ⟨.liftedBan, index, bytes⟩ =>
    { change with
      liftedBans := change.liftedBans.modify index ({ · with serviceId := keys.nameBehind bytes }) }
  | ⟨.invitedPni, index, bytes⟩ =>
    { change with
      acceptedPniInvites := change.acceptedPniInvites.modify index
        ({ · with pni := keys.nameBehind bytes }) }

def renameAll (keys : Keyring) (change : Change) (replacements : List Replacement) : Change :=
  replacements.foldl (rename keys) change

end Change

/-! ### One entry of a list -/

section

variable {ε α β : Type} {f : α → Except ε β} {g : α → α} {h : β → β} {entries : List α}
  {results : List β} {index : Nat}

/-- If entries still open after an edit, the edit of one of them shows in its result only. -/
theorem mapM_modify (edits : ∀ a b, f a = .ok b → f (g a) = .ok (h b))
    (opened : entries.mapM f = .ok results) (index : Nat) :
    (entries.modify index g).mapM f = .ok (results.modify index h) := by
  induction entries generalizing results index with
  | nil =>
    cases opened
    cases index <;> rfl
  | cons a entries ih =>
    obtain ⟨b, rest, first, later, rfl⟩ := mapM_cons_eq_ok_iff.1 opened
    cases index with
    | zero => exact mapM_cons_eq_ok_iff.2 ⟨h b, rest, edits a b first, later, rfl⟩
    | succ index => exact mapM_cons_eq_ok_iff.2 ⟨b, _, first, ih later index, rfl⟩

/-- If the entries open after the edit of one that is there, it opens as edited. -/
theorem opened_of_mapM_modify (opened : (entries.modify index g).mapM f = .ok results)
    (there : index < entries.length) : ∃ a b, f (g a) = .ok b := by
  have edited : (entries.modify index g)[index]? = some (g entries[index]) := by
    rw [List.getElem?_modify_eq, List.getElem?_eq_getElem there, Option.map_eq_map, Option.map_some]
  -- the edited entry is opened like any other
  rcases getElem?_of_mapM opened index with ⟨none, -⟩ | ⟨a, -, b, opens, found, -⟩
  · rw [edited] at none
    cases none
  · rw [edited] at found
    cases found
    exact ⟨_, b, opens⟩

theorem getLast?_map_modify {γ : Type} {view : α → γ} (kept : ∀ a, view (g a) = view a)
    (entries : List α) (index : Nat) :
    (entries.modify index g).getLast?.map view = entries.getLast?.map view := by
  have views : (entries.modify index g).map view = entries.map view := by
    apply List.ext_getElem?
    intro i
    rw [List.getElem?_map, List.getElem?_map, List.getElem?_modify]
    by_cases hit : index = i <;> simp [hit, kept, Function.comp_def]
  rw [← List.getLast?_map, views, List.getLast?_map]

end

/-! ### What a place admits is read -/

namespace GroupClient

variable {client : GroupClient} {part : Part} {bytes : Bytes}

theorem openIdentity_eq_ok_iff_reads {id : ServiceId} :
    client.openIdentity part bytes = .ok id ↔ client.keys.Reads bytes id := by
  rw [openIdentity, inPart_eq_ok_iff, bind_eq_ok_iff]
  simp only [fixedSize_eq_ok_iff, Keyring.Reads]

theorem openAci_eq_ok_iff_reads {aci : Uuid} :
    client.openAci part bytes = .ok aci ↔ client.keys.Reads bytes (.aci aci) := by
  rw [openAci_eq_ok_iff, ← @openIdentity_eq_ok_iff client part, openIdentity_eq_ok_iff_reads]

theorem nameBehind_of_reads {id : ServiceId} (reads : client.keys.Reads bytes id) :
    client.keys.nameBehind bytes = id.toBinary := by
  obtain ⟨sealed, rfl, opened⟩ := reads
  exact Keyring.nameBehind_of_ok opened

theorem openIdentityOrUnknown_of_length (client : GroupClient)
    (admitted : bytes = [] ∨ bytes.length = 57) :
    (client.openIdentityOrUnknown bytes).outcome = .ok (client.keys.nameBehind bytes) :=
  openIdentityOrUnknown_eq_ok_iff.2 ⟨admitted, rfl⟩

theorem openPniAcceptance_eq_ok_iff {revision : UInt32} {entry : Sealed.PniIdentity}
    {member : Member} : client.openPniAcceptance revision entry = .ok member ↔
      ∃ (person : Person) (pni : Uuid),
        client.openPerson entry.userId entry.profileKey entry.presentation = .ok person
          ∧ client.keys.Reads entry.pni (.pni pni)
          ∧ member = {
              aci := person.aci.toList
              role := .normal
              profileKey := person.profileKey.toList
              joinedAt := revision
              pni := (ServiceId.pni pni).toBinary } := by
  rw [openPniAcceptance, bind_eq_ok_iff]
  constructor
  · rintro ⟨person, found, invited⟩
    obtain ⟨id, read, same⟩ := bind_eq_ok_iff.1 invited
    -- an account is read, too, but it is not what was invited
    cases id with
    | aci aci => cases same
    | pni pni =>
      cases same
      exact ⟨person, pni, found, openIdentity_eq_ok_iff_reads.1 read, rfl⟩
  · rintro ⟨person, pni, found, reads, rfl⟩
    exact ⟨person, found, bind_eq_ok_iff.2 ⟨.pni pni, openIdentity_eq_ok_iff_reads.2 reads, rfl⟩⟩

/-- Entries that name accounts are read as before, but for the one that names another now. -/
theorem mapM_modify_aci {α β : Type} {userId : α → Bytes} {make : α → Uuid → β} {edit : α → α}
    {rename : β → β} {entries : List α} {results : List β}
    (admitted : ∃ aci : Uuid, client.keys.Reads bytes (.aci aci))
    (opened : (entries.mapM fun entry => do
      return make entry (← client.openAci part (userId entry))) = .ok results) (index : Nat)
    (given : ∀ entry, userId (edit entry) = bytes)
    (renamed : ∀ entry old (aci : Uuid), client.keys.nameBehind bytes = aci.toList →
      rename (make entry old) = make (edit entry) aci) :
    ((entries.modify index edit).mapM fun entry => do
      return make entry (← client.openAci part (userId entry))) =
        .ok (results.modify index rename) := by
  obtain ⟨aci, reads⟩ := admitted
  refine mapM_modify (fun entry result opened => ?_) opened index
  obtain ⟨old, -, same⟩ := bind_eq_ok_iff.1 opened
  cases same
  refine bind_eq_ok_iff.2 ⟨aci, openAci_eq_ok_iff_reads.2 ((given entry).symm ▸ reads), ?_⟩
  exact congrArg Except.ok (renamed entry old aci (nameBehind_of_reads reads)).symm

/-- If entries that name accounts are read, so is the one that names another now. -/
theorem reads_of_mapM_modify {α β : Type} {userId : α → Bytes} {make : α → Uuid → β} {edit : α → α}
    {entries : List α} {results : List β} {index : Nat}
    (opened : ((entries.modify index edit).mapM fun entry => do
      return make entry (← client.openAci part (userId entry))) = .ok results)
    (there : index < entries.length) (given : ∀ entry, userId (edit entry) = bytes) :
    ∃ aci : Uuid, client.keys.Reads bytes (.aci aci) := by
  obtain ⟨entry, _, opened⟩ := opened_of_mapM_modify opened there
  obtain ⟨aci, read, -⟩ := bind_eq_ok_iff.1 opened
  exact ⟨aci, given entry ▸ openAci_eq_ok_iff_reads.1 read⟩

/-! ### Replacing on both sides -/

variable {actions : Sealed.Actions} {change : Change}

/-- Bytes that a place admits are read there, and all else is read as before. -/
theorem Opens.replace (opens : client.Opens actions change) {replacement : Replacement}
    (admitted : replacement.place.Admits client.keys replacement.bytes) :
    client.Opens (actions.replace replacement) (change.rename client.keys replacement) := by
  obtain ⟨place, index, bytes⟩ := replacement
  cases place with
  | removedMember =>
    exact { opens with
      removedMembers := mapM_modify_aci admitted opens.removedMembers index (fun _ => rfl)
        fun _ _ _ named => named }
  | changedMember =>
    exact { opens with
      roleChanges := mapM_modify_aci admitted opens.roleChanges index (fun _ => rfl)
        fun entry _ _ named => congrArg (RoleChange.mk · entry.role) named }
  | invitee =>
    -- of an invite only the invitee is read anew, the rest opens as it did
    have read := client.openIdentityOrUnknown_of_length admitted
    refine { opens with
      newInvites := mapM_modify (fun entry invite opened => ?_) opens.newInvites index }
    obtain ⟨added, there, opened⟩ := bind_eq_ok_iff.1 opened
    obtain ⟨-, inviter, role, timestamp, -⟩ := openInvite_eq_ok_iff.1 opened
    rw [require_eq_ok_iff.1 there, Option.map_some, require_some_bind]
    exact openInvite_eq_ok_iff.2 ⟨read, inviter, role, timestamp, rfl⟩
  | inviter =>
    have read := client.openIdentityOrUnknown_of_length admitted
    refine { opens with
      newInvites := mapM_modify (fun entry invite opened => ?_) opens.newInvites index }
    obtain ⟨added, there, opened⟩ := bind_eq_ok_iff.1 opened
    obtain ⟨invitee, -, role, timestamp, ciphertext⟩ := openInvite_eq_ok_iff.1 opened
    rw [require_eq_ok_iff.1 there, Option.map_some, require_some_bind]
    exact openInvite_eq_ok_iff.2 ⟨invitee, read, role, timestamp, ciphertext⟩
  | revokedInvite =>
    have read := client.openIdentityOrUnknown_of_length admitted
    refine { opens with
      revokedInvites := mapM_modify (fun entry revocation _ => ?_) opens.revokedInvites index }
    exact bind_eq_ok_iff.2 ⟨_, read, rfl⟩
  | refusedRequest =>
    exact { opens with
      refusedRequests := mapM_modify_aci admitted opens.refusedRequests index (fun _ => rfl)
        fun _ _ _ named => named }
  | approvedRequest =>
    exact { opens with
      approvedRequests := mapM_modify_aci admitted opens.approvedRequests index (fun _ => rfl)
        fun entry _ _ named => congrArg (Approval.mk · entry.role) named }
  | newBan =>
    have read := client.openIdentityOrUnknown_of_length admitted
    refine { opens with newBans := mapM_modify (fun entry ban opened => ?_) opens.newBans index }
    obtain ⟨added, there, opened⟩ := bind_eq_ok_iff.1 opened
    obtain ⟨-, timestamp⟩ := openBan_eq_ok_iff.1 opened
    rw [require_eq_ok_iff.1 there, Option.map_some, require_some_bind]
    exact openBan_eq_ok_iff.2 ⟨read, timestamp⟩
  | liftedBan =>
    have read := client.openIdentityOrUnknown_of_length admitted
    refine { opens with
      liftedBans := mapM_modify (fun entry ban opened => ?_) opens.liftedBans index }
    obtain ⟨id, -, same⟩ := bind_eq_ok_iff.1 opened
    cases same
    exact bind_eq_ok_iff.2 ⟨_, read, rfl⟩
  | invitedPni =>
    obtain ⟨pni, reads⟩ := admitted
    refine { opens with
      acceptedPniInvites := mapM_modify (fun entry member opened => ?_)
        opens.acceptedPniInvites index }
    -- who presents themselves is read as before, and with them the editor
    obtain ⟨person, -, found, -, rfl⟩ := openPniAcceptance_eq_ok_iff.1 opened
    rw [nameBehind_of_reads reads]
    exact openPniAcceptance_eq_ok_iff.2 ⟨person, pni, found, reads, rfl⟩

/-- A place that bytes are read in admits them. -/
theorem Opens.admits {tampered : Change} {replacement : Replacement}
    (opens : client.Opens (actions.replace replacement) tampered)
    (there : replacement.index < actions.count replacement.place) :
    replacement.place.Admits client.keys replacement.bytes := by
  obtain ⟨place, index, bytes⟩ := replacement
  -- the entry that is edited opens, and no step of opening it reads anything else in that place
  cases place with
  | removedMember => exact reads_of_mapM_modify opens.removedMembers there fun _ => rfl
  | changedMember => exact reads_of_mapM_modify opens.roleChanges there fun _ => rfl
  | invitee =>
    obtain ⟨entry, _, opened⟩ := opened_of_mapM_modify opens.newInvites there
    obtain ⟨added, given, opened⟩ := bind_eq_ok_iff.1 opened
    obtain ⟨invite, -, rfl⟩ := Option.map_eq_some_iff.1 (require_eq_ok_iff.1 given)
    exact (openIdentityOrUnknown_eq_ok_iff.1 (openInvite_eq_ok_iff.1 opened).1).1
  | inviter =>
    obtain ⟨entry, _, opened⟩ := opened_of_mapM_modify opens.newInvites there
    obtain ⟨added, given, opened⟩ := bind_eq_ok_iff.1 opened
    obtain ⟨invite, -, rfl⟩ := Option.map_eq_some_iff.1 (require_eq_ok_iff.1 given)
    exact (openIdentityOrUnknown_eq_ok_iff.1 (openInvite_eq_ok_iff.1 opened).2.1).1
  | revokedInvite =>
    obtain ⟨_, _, opened⟩ := opened_of_mapM_modify opens.revokedInvites there
    obtain ⟨id, read, -⟩ := bind_eq_ok_iff.1 opened
    exact (openIdentityOrUnknown_eq_ok_iff.1 read).1
  | refusedRequest => exact reads_of_mapM_modify opens.refusedRequests there fun _ => rfl
  | approvedRequest => exact reads_of_mapM_modify opens.approvedRequests there fun _ => rfl
  | newBan =>
    obtain ⟨entry, _, opened⟩ := opened_of_mapM_modify opens.newBans there
    obtain ⟨added, given, opened⟩ := bind_eq_ok_iff.1 opened
    obtain ⟨ban, -, rfl⟩ := Option.map_eq_some_iff.1 (require_eq_ok_iff.1 given)
    exact (openIdentityOrUnknown_eq_ok_iff.1 (openBan_eq_ok_iff.1 opened).1).1
  | liftedBan =>
    obtain ⟨_, _, opened⟩ := opened_of_mapM_modify opens.liftedBans there
    obtain ⟨id, read, -⟩ := bind_eq_ok_iff.1 opened
    exact (openIdentityOrUnknown_eq_ok_iff.1 read).1
  | invitedPni =>
    obtain ⟨_, _, opened⟩ := opened_of_mapM_modify opens.acceptedPniInvites there
    obtain ⟨-, pni, -, reads, -⟩ := openPniAcceptance_eq_ok_iff.1 opened
    exact ⟨pni, reads⟩

end GroupClient

/-! ### Tampering -/

namespace Sealed.Actions

theorem source_replace (actions : Actions) (replacement : Replacement) :
    (actions.replace replacement).source = actions.source := by
  obtain ⟨place, index, bytes⟩ := replacement
  cases place <;> rfl

end Sealed.Actions

namespace Change

theorem editor_rename (keys : Keyring) (change : Change) (replacement : Replacement) :
    (change.rename keys replacement).editor = change.editor := by
  obtain ⟨place, index, bytes⟩ := replacement
  cases place <;> rfl

/-- Whoever accepts an invite last still does, even if the phone number identity is another. -/
theorem lastAcceptance_rename (keys : Keyring) (change : Change) (replacement : Replacement) :
    (change.rename keys replacement).acceptedPniInvites.getLast?.map (·.aci) =
      change.acceptedPniInvites.getLast?.map (·.aci) := by
  obtain ⟨place, index, bytes⟩ := replacement
  cases place with
  | invitedPni =>
    apply getLast?_map_modify
    exact fun _ => rfl
  | _ => rfl

end Change

namespace GroupClient

variable {client : GroupClient} {actions : Sealed.Actions} {change : Change}
  {source : Option ServiceId}

theorem openActions_replace_some {id : ServiceId}
    (opened : (client.openActions actions (some id)).outcome = .ok change)
    {replacement : Replacement}
    (admitted : replacement.place.Admits client.keys replacement.bytes) :
    (client.openActions (actions.replace replacement) (some id)).outcome =
      .ok (change.rename client.keys replacement) := by
  obtain ⟨opens, editor⟩ := openActions_eq_ok_iff.1 opened
  refine openActions_eq_ok_iff.2 ⟨opens.replace admitted, ?_⟩
  rw [Change.lastAcceptance_rename, Change.editor_rename, editor]

/-- After a replacement by bytes that the place admits, actions decrypt to the change with the new
name. -/
theorem openActions_replace (opened : (client.openActions actions source).outcome = .ok change)
    {replacement : Replacement}
    (admitted : replacement.place.Admits client.keys replacement.bytes) :
    (client.openActions (actions.replace replacement) source).outcome =
      .ok (change.rename client.keys replacement) := by
  cases source with
  | some id => exact openActions_replace_some opened admitted
  | none =>
    rw [outcome_openActions_none] at opened ⊢
    -- whose actions these are is read before any of the entries, and none of the places is theirs
    obtain ⟨id, known, opened⟩ := bind_eq_ok_iff.1 opened
    refine bind_eq_ok_iff.2 ⟨id, ?_, openActions_replace_some opened admitted⟩
    rw [Sealed.Actions.source_replace, known]

theorem openActions_replaceAll (opened : (client.openActions actions source).outcome = .ok change)
    {replacements : List Replacement}
    (admitted : ∀ replacement ∈ replacements,
      replacement.place.Admits client.keys replacement.bytes) :
    (client.openActions (actions.replaceAll replacements) source).outcome =
      .ok (change.renameAll client.keys replacements) := by
  induction replacements generalizing actions change with
  | nil => exact opened
  | cons replacement rest ih =>
    apply ih (openActions_replace opened (admitted replacement List.mem_cons_self))
    exact fun other mem => admitted other (List.mem_cons_of_mem _ mem)

/-- After a replacement by bytes that the place does not admit, actions are refused. -/
theorem openActions_replace_refused {replacement : Replacement}
    (there : replacement.index < actions.count replacement.place)
    (refused : ¬ replacement.place.Admits client.keys replacement.bytes) :
    ∃ part flaw, (client.openActions (actions.replace replacement) source).outcome =
      .error (.invalidState part flaw) := by
  cases outcome : (client.openActions (actions.replace replacement) source).outcome with
  | ok tampered => exact absurd ((opens_of_openActions outcome).admits there) refused
  | error error =>
    obtain ⟨part, flaw, rfl⟩ := onlyInvalid_openActions _ _ error outcome
    exact ⟨part, flaw, rfl⟩

/-- Of actions that decrypt, any ciphertexts may be replaced by bytes that their places admit, and
the change stays as it was up to who is named there. One entry that gets other bytes is enough for
the change to be refused. -/
theorem tampering_exact (opened : (client.openActions actions source).outcome = .ok change) :
    (∀ replacements : List Replacement,
      (∀ replacement ∈ replacements, replacement.place.Admits client.keys replacement.bytes) →
        (client.openActions (actions.replaceAll replacements) source).outcome =
          .ok (change.renameAll client.keys replacements))
    ∧ ∀ replacement : Replacement, replacement.index < actions.count replacement.place →
        ¬ replacement.place.Admits client.keys replacement.bytes →
          ∃ part flaw, (client.openActions (actions.replace replacement) source).outcome =
            .error (.invalidState part flaw) := by
  refine ⟨fun replacements admitted => openActions_replaceAll opened admitted, ?_⟩
  exact fun replacement there refused => openActions_replace_refused there refused

end GroupClient

namespace Sample

/-- An invite gets the inviter it lost, another is taken back of nobody, and a ban of nobody is
lifted. -/
def harmless : List Replacement :=
  [⟨.inviter, 0, sealedId (.aci (uuid 7))⟩, ⟨.revokedInvite, 1, (ciphertext 8).toList⟩,
    ⟨.liftedBan, 1, []⟩]

theorem harmless_admitted : ∀ replacement ∈ harmless,
    replacement.place.Admits reader.keys replacement.bytes := by
  intro replacement mem
  simp only [harmless, List.mem_cons, List.not_mem_nil, or_false] at mem
  rcases mem with rfl | rfl | rfl
  · exact .inr (Octets.length_toList _)
  · exact .inr (ciphertext 8).length_toList
  · exact .inl rfl

theorem not_admits_short : ¬ Place.liftedBan.Admits reader.keys [1] := by
  rintro (none | long)
  · cases none
  · cases long

theorem not_reads_ciphertext (id : ServiceId) : ¬ reader.keys.Reads (ciphertext 3).toList id := by
  rintro ⟨sealed, same, opened⟩
  rw [Octets.ext_toList same, openIdentity_unreadable] at opened
  cases opened

theorem tampering_exact_sample :
    (reader.openActions mixedActions (some (.aci (uuid 6)))).outcome = .ok mixedChange
      ∧ (reader.openActions (mixedActions.replaceAll harmless) (some (.aci (uuid 6)))).outcome =
        .ok (mixedChange.renameAll reader.keys harmless)
      ∧ (∃ part flaw, (reader.openActions (mixedActions.replace ⟨.liftedBan, 0, [1]⟩)
        (some (.aci (uuid 6)))).outcome = .error (.invalidState part flaw))
      ∧ ∃ part flaw, (reader.openActions
        (mixedActions.replace ⟨.removedMember, 0, (ciphertext 3).toList⟩)
          (some (.aci (uuid 6)))).outcome = .error (.invalidState part flaw) := by
  obtain ⟨kept, refused⟩ := GroupClient.tampering_exact openActions_mixedActions
  refine ⟨openActions_mixedActions, kept harmless harmless_admitted, ?_, ?_⟩
  · exact refused _ Nat.two_pos not_admits_short
  · exact refused _ Nat.zero_lt_one fun ⟨aci, reads⟩ => not_reads_ciphertext _ reads

end Sample

end SealedGroups
