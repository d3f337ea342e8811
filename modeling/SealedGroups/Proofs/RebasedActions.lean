import SealedGroups.Group.Rebase
import SealedGroups.Proofs.Intents

/-!
# Rebased actions decrypt to the rebased change

The decisions of a rebase are taken on a plaintext change and carried out on the actions it came
from. Every edit keeps the two in step (`Opens.edit`), so the rebased actions decrypt to the rebased
change, whatever the decisions are. Only the editor may differ: it is whoever accepts an invite to a
phone number identity, and that acceptance can be dropped.
-/

namespace SealedGroups

/-! ### Entries that are taken out or moved -/

section

variable {ε α β : Type} {f : α → Except ε β} {a : α} {entries : List α} {results : List β}

theorem mapM_eraseIdx (opened : entries.mapM f = .ok results) (index : Nat) :
    (entries.eraseIdx index).mapM f = .ok (results.eraseIdx index) := by
  induction entries generalizing results index with
  | nil =>
    cases opened
    rfl
  | cons a entries ih =>
    obtain ⟨b, rest, first, later, rfl⟩ := mapM_cons_eq_ok_iff.1 opened
    cases index with
    | zero => exact later
    | succ index => exact mapM_cons_eq_ok_iff.2 ⟨b, _, first, ih later index, rfl⟩

theorem mapM_concat {others : List α} {b : β} (opened : others.mapM f = .ok results)
    (last : f a = .ok b) : (others ++ [a]).mapM f = .ok (results ++ [b]) := by
  rw [List.mapM_append, opened, List.mapM_cons, last]
  rfl

/-- At every position there is an entry and what it opens to, or neither. -/
theorem getElem?_of_mapM (opened : entries.mapM f = .ok results) (index : Nat) :
    (entries[index]? = none ∧ results[index]? = none) ∨
      ∃ a ∈ entries, ∃ b, f a = .ok b ∧ entries[index]? = some a ∧ results[index]? = some b := by
  induction entries generalizing results index with
  | nil =>
    cases opened
    exact Or.inl ⟨rfl, rfl⟩
  | cons a entries ih =>
    obtain ⟨b, rest, first, later, rfl⟩ := mapM_cons_eq_ok_iff.1 opened
    cases index with
    | zero => exact Or.inr ⟨a, List.mem_cons_self, b, first, rfl, rfl⟩
    | succ index =>
      rcases ih later index with outside | ⟨a, mem, b, opens, there, result⟩
      · exact Or.inl outside
      · exact Or.inr ⟨a, List.mem_cons_of_mem _ mem, b, opens, there, result⟩

/-- An entry that moves to another list opens to what its result becomes there. -/
theorem mapM_move {γ δ : Type} {g : γ → Except ε δ} {move : α → γ} {become : β → δ}
    {others : List γ} {otherResults : List δ} (opened : entries.mapM f = .ok results)
    (others_opened : others.mapM g = .ok otherResults)
    (moves : ∀ a ∈ entries, ∀ b, f a = .ok b → g (move a) = .ok (become b)) (index : Nat) :
    (others ++ (entries[index]?.map move).toList).mapM g =
      .ok (otherResults ++ (results[index]?.map become).toList) := by
  -- past the end of the list nothing moves, on either side
  rcases getElem?_of_mapM opened index with ⟨none, none'⟩ | ⟨a, mem, b, opens, there, result⟩
  · rw [none, none', Option.map_none, Option.map_none, Option.toList_none, Option.toList_none,
      List.append_nil, List.append_nil]
    exact others_opened
  · rw [there, result]
    exact mapM_concat others_opened (moves a mem b opens)

end

namespace GroupClient

variable {client : GroupClient} {actions : Sealed.Actions} {change : Change}

/-! ### Edits on both sides -/

theorem Opens.dropEntry (opens : client.Opens actions change) (index : Nat) (slot : ListSlot) :
    client.Opens (actions.dropEntry index slot) (change.dropEntry index slot) := by
  cases slot with
  | newMembers => exact { opens with newMembers := mapM_eraseIdx opens.newMembers index }
  | removedMembers =>
    exact { opens with removedMembers := mapM_eraseIdx opens.removedMembers index }
  | roleChanges => exact { opens with roleChanges := mapM_eraseIdx opens.roleChanges index }
  | profileKeyChanges =>
    exact { opens with profileKeyChanges := mapM_eraseIdx opens.profileKeyChanges index }
  | newInvites => exact { opens with newInvites := mapM_eraseIdx opens.newInvites index }
  | revokedInvites =>
    exact { opens with revokedInvites := mapM_eraseIdx opens.revokedInvites index }
  | acceptedInvites =>
    exact { opens with acceptedInvites := mapM_eraseIdx opens.acceptedInvites index }
  | newRequests => exact { opens with newRequests := mapM_eraseIdx opens.newRequests index }
  | refusedRequests =>
    exact { opens with refusedRequests := mapM_eraseIdx opens.refusedRequests index }
  | approvedRequests =>
    exact { opens with approvedRequests := mapM_eraseIdx opens.approvedRequests index }
  | newBans => exact { opens with newBans := mapM_eraseIdx opens.newBans index }
  | liftedBans => exact { opens with liftedBans := mapM_eraseIdx opens.liftedBans index }
  | acceptedPniInvites =>
    exact { opens with acceptedPniInvites := mapM_eraseIdx opens.acceptedPniInvites index }

theorem Opens.clearValue (opens : client.Opens actions change) (slot : ValueSlot) :
    client.Opens (actions.clearValue slot) (change.clearValue slot) := by
  cases slot with
  | title => exact { opens with title := rfl }
  | avatar => exact { opens with avatar := rfl }
  | timer => exact { opens with timer := rfl }
  | attributesAccess => exact { opens with attributesAccess := rfl }
  | membersAccess => exact { opens with membersAccess := rfl }
  | inviteLinkAccess => exact { opens with inviteLinkAccess := rfl }
  | description => exact { opens with description := rfl }
  | announcements => exact { opens with announcements := rfl }

/-- Whoever is presented to be added with the normal role accepts an invite as the same member. -/
theorem openAcceptance_of_openMember {revision : UInt32} {added : Sealed.Member} {member : Member}
    (presented : added.presentation ≠ []) (role : added.role = .normal)
    (opens : client.openMember revision added = .ok member) :
    client.openAcceptance revision (Sealed.Actions.acceptance added.presentation) = .ok member := by
  rw [openMember, openPerson_of_presented presented, role] at opens
  rw [openAcceptance, Sealed.Actions.acceptance, openPerson_of_presented presented]
  exact opens

/-- Whoever is presented to ask to be let in is the member who accepts an invite. -/
theorem openAcceptance_of_openRequest {added : Sealed.JoinRequest} {request : JoinRequest}
    (presented : added.presentation ≠ []) (revision : actions.revision = change.revision)
    (opens : client.openRequest added = .ok request) :
    client.openAcceptance actions.revision (Sealed.Actions.acceptance added.presentation) =
      .ok (change.memberOfRequest request) := by
  rw [openRequest, openPerson_of_presented presented] at opens
  obtain ⟨person, opened, same⟩ := bind_eq_ok_iff.1 opens
  cases same
  rw [openAcceptance, Sealed.Actions.acceptance, openPerson_of_presented presented, opened,
    revision]
  rfl

end GroupClient

/-- Actions as a client makes them: whoever is added or asks to be let in is presented, and added
with the normal role. -/
structure Sealed.Actions.Presented (actions : Sealed.Actions) : Prop where
  newMembers : ∀ entry ∈ actions.newMembers, ∀ added, entry.added = some added →
    added.presentation ≠ [] ∧ added.role = .normal
  newRequests : ∀ entry ∈ actions.newRequests, ∀ added, entry.added = some added →
    added.presentation ≠ []

namespace GroupClient

variable {client : GroupClient} {actions : Sealed.Actions} {change : Change}

theorem Opens.acceptAsNewMember (opens : client.Opens actions change)
    (presented : actions.Presented) (index : Nat) :
    client.Opens (actions.edit (.acceptAsNewMember index))
      (change.edit (.acceptAsNewMember index)) := by
  have accepted : ((actions.edit (.acceptAsNewMember index)).acceptedInvites).mapM
      (client.openAcceptance actions.revision) =
        .ok (change.acceptedInvites ++ (change.newMembers[index]?.map id).toList) := by
    -- an addition carries what its presentation shows, as an acceptance does
    apply mapM_move opens.newMembers opens.acceptedInvites
    intro entry mem member opened
    obtain ⟨added, there, opened⟩ := bind_eq_ok_iff.1 opened
    have given := require_eq_ok_iff.1 there
    obtain ⟨nonempty, role⟩ := presented.newMembers entry mem added given
    rw [given]
    exact openAcceptance_of_openMember nonempty role opened
  rw [Option.map_id] at accepted
  exact { opens with
    newMembers := mapM_eraseIdx opens.newMembers index
    acceptedInvites := accepted }

theorem Opens.acceptAsRequester (opens : client.Opens actions change)
    (presented : actions.Presented) (index : Nat) :
    client.Opens (actions.edit (.acceptAsRequester index))
      (change.edit (.acceptAsRequester index)) := by
  have accepted : ((actions.edit (.acceptAsRequester index)).acceptedInvites).mapM
      (client.openAcceptance actions.revision) =
        .ok (change.acceptedInvites
          ++ (change.newRequests[index]?.map change.memberOfRequest).toList) := by
    -- a request has no revision, so the member made of it takes that of the change
    apply mapM_move opens.newRequests opens.acceptedInvites
    intro entry mem request opened
    obtain ⟨added, there, opened⟩ := bind_eq_ok_iff.1 opened
    have given := require_eq_ok_iff.1 there
    rw [given]
    exact openAcceptance_of_openRequest (presented.newRequests entry mem added given)
      opens.revision opened
  exact { opens with
    newRequests := mapM_eraseIdx opens.newRequests index
    acceptedInvites := accepted }

/-- The same edit on both sides keeps actions and change in step. -/
theorem Opens.edit (opens : client.Opens actions change) (presented : actions.Presented)
    (edit : Edit) : client.Opens (actions.edit edit) (change.edit edit) := by
  cases edit with
  | drop slot index => exact opens.dropEntry index slot
  | clear slot => exact opens.clearValue slot
  | acceptAsNewMember index => exact opens.acceptAsNewMember presented index
  | acceptAsRequester index => exact opens.acceptAsRequester presented index

end GroupClient

namespace Sealed.Actions

theorem newMembers_edit_sublist (actions : Actions) (edit : Edit) :
    (actions.edit edit).newMembers.Sublist actions.newMembers := by
  cases edit with
  | drop slot index =>
    cases slot with
    | newMembers => exact List.eraseIdx_sublist _ _
    | _ => exact List.Sublist.refl _
  | clear slot => cases slot <;> exact List.Sublist.refl _
  | acceptAsNewMember index => exact List.eraseIdx_sublist _ _
  | acceptAsRequester index => exact List.Sublist.refl _

theorem newRequests_edit_sublist (actions : Actions) (edit : Edit) :
    (actions.edit edit).newRequests.Sublist actions.newRequests := by
  cases edit with
  | drop slot index =>
    cases slot with
    | newRequests => exact List.eraseIdx_sublist _ _
    | _ => exact List.Sublist.refl _
  | clear slot => cases slot <;> exact List.Sublist.refl _
  | acceptAsNewMember index => exact List.Sublist.refl _
  | acceptAsRequester index => exact List.eraseIdx_sublist _ _

/-- No edit brings in someone who is not presented. -/
theorem Presented.edit {actions : Actions} (presented : actions.Presented) (edit : Edit) :
    (actions.edit edit).Presented := by
  -- editing takes entries out of these two slots, and never puts one in
  constructor
  · intro entry mem
    exact presented.newMembers entry ((newMembers_edit_sublist actions edit).subset mem)
  · intro entry mem
    exact presented.newRequests entry ((newRequests_edit_sublist actions edit).subset mem)

end Sealed.Actions

/-! ### Rebasing on both sides -/

namespace GroupClient

variable {client : GroupClient} {actions : Sealed.Actions} {change : Change}

/-- Whatever is decided, carrying it out on both sides keeps actions and change in step. -/
theorem Opens.carryOut (opens : client.Opens actions change) (presented : actions.Presented)
    (decisions : List Decision) :
    client.Opens (decisions.foldl (fun result decision => result.edit decision.edit) actions)
      (decisions.foldl (fun result decision => result.edit decision.edit) change) := by
  induction decisions generalizing actions change with
  | nil => exact opens
  | cons decision rest ih => exact ih (opens.edit presented decision.edit) (presented.edit _)

/-- Rebasing actions and rebasing what they say agree, except about the editor. -/
theorem openActions_rebase {source : ServiceId} (group : Snapshot)
    (opened : (client.openActions actions (some source)).outcome = .ok change)
    (presented : actions.Presented) :
    ∃ editor, (client.openActions (actions.rebase group change) (some source)).outcome =
      .ok { change.rebase group with editor } := by
  obtain ⟨opens, -⟩ := openActions_eq_ok_iff.1 opened
  have rebased : client.Opens (actions.rebase group change) (change.rebase group) :=
    opens.carryOut presented (group.decisions change)
  exact rebased.openActions source

end GroupClient

/-! ### A rebase that turns an addition and a request into acceptances -/

namespace Sample

/-- The credential that the server issues to a person on Ristretto. -/
def credentialOf (n : Nat) : Credential :=
  issuer.issue Ristretto.curve (uuid n) (profileKey n) expiration

/-- What a person presents to the group on Ristretto. -/
def presentation (n : Nat) : Presentation :=
  (credentialOf n).presentation Ristretto.curve groupKeys

/-- Those who present themselves. -/
def presenters : List Nat :=
  [2, 3, 4, 5]

def presenterNonces : List Scalar := [
  .ofNat 3290582445563021579866360052928387126574491844198990844980538427281064420280,
  .ofNat 1904579763854768965055804230047798378066975387295116535359309284914336257470,
  .ofNat 6233196470600006568238143321719631130332016495607424899919170956701939540754,
  .ofNat 2676037665509605694891974060764094367787870604938649839937867798351569633384]

theorem presenterNonces_eq :
    presenters.map (fun n => Scalar.ofWide (sha512 ((credentialOf n).nonceInput Ristretto.curve
      groupKeys))) = presenterNonces := by
  have params : groupKeys.publicParams Ristretto.curve =
      ⟨groupKeys.identifier, Ristretto.compress (Ristretto.mul 7 Ristretto.base)⟩ := rfl
  -- what is hashed is written out before the hash runs, which reads it again and again
  simp only [Credential.nonceInput, Credential.transcript, params]
  unfold Ristretto.compress Ristretto.invSqrt Keyring.sealIdentity Keyring.identityNonce
    Keyring.sealProfileKey Keyring.profileKeyNonce Keyring.syntheticNonce
  rw [Ristretto.mul_eq, Ristretto.fpow_eq, sha256_eq, sha512_eq]
  decide +kernel

/-- The scalars whose multiples of the base point are encoded when they do. -/
def presenterSecrets : List Scalar :=
  groupKeys.signingKey :: presenterNonces

theorem distinct_presenterSecrets :
    (presenterSecrets.map Scalar.toOctets
      ++ presenterSecrets.map Ristretto.curve.encodedMultiple).Nodup := by
  rw [Ristretto.encodedMultiple_curve]
  unfold Ristretto.compress Ristretto.invSqrt
  rw [Ristretto.mul_eq, Ristretto.fpow_eq]
  decide +kernel

/-- A client in the group, on a lawful curve that encodes them as Ristretto does. -/
def doorkeeper : GroupClient where
  curve := .lookalike presenterSecrets
  serverKey := issuer.publicKey Ristretto.curve
  keys := groupKeys

theorem lawful_doorkeeper :
    doorkeeper.curve.Lawful fun (a : Scalar) e => (a.value : ZMod Scalar.order) = e :=
  Curve.lawful_lookalike _

theorem presentation_doorkeeper {n : Nat} (presents : n ∈ presenters) :
    (credentialOf n).presentation doorkeeper.curve groupKeys = presentation n := by
  apply Credential.presentation_congr
  · exact Curve.encodedMultiple_lookalike distinct_presenterSecrets List.mem_cons_self
  · apply Curve.encodedMultiple_lookalike distinct_presenterSecrets
    -- the second point that is encoded is that of the nonce, which running the hash has shown
    refine List.mem_cons_of_mem _ ?_
    rw [← presenterNonces_eq]
    exact List.mem_map_of_mem presents

theorem openPerson_presenter {n : Nat} (presents : n ∈ presenters) :
    doorkeeper.openPerson [] [] (presentation n).toBytes = .ok ⟨uuid n, profileKey n⟩ := by
  rw [← presentation_doorkeeper presents]
  exact GroupClient.openPerson_presentation lawful_doorkeeper (credentialOf n) [] []

def sealedMember (n : Nat) : Sealed.Member where
  role := .normal
  presentation := (presentation n).toBytes

def sealedRequest (n : Nat) : Sealed.JoinRequest where
  presentation := (presentation n).toBytes

/-- A person who accepts an invite to a phone number identity. -/
def pniIdentity (n number : Nat) : Sealed.PniIdentity where
  presentation := (presentation n).toBytes
  pni := (doorkeeper.keys.sealIdentity (.pni (uuid number))).toList

section

variable {n : Nat} (presents : n ∈ presenters) (revision : UInt32)

include presents

theorem open_addition : (do
    doorkeeper.openMember revision (← GroupClient.require .addedMember (some (sealedMember n)))) =
      .ok { member n with joinedAt := revision } := by
  rw [GroupClient.require_some_bind, GroupClient.openMember, sealedMember,
    openPerson_presenter presents]
  rfl

theorem open_request : (do
    doorkeeper.openRequest (← GroupClient.require .addedRequest (some (sealedRequest n)))) =
      .ok (request n) := by
  rw [GroupClient.require_some_bind, GroupClient.openRequest, sealedRequest,
    openPerson_presenter presents]
  rfl

theorem openPniAcceptance_pniIdentity (number : Nat) :
    doorkeeper.openPniAcceptance revision (pniIdentity n number) =
      .ok { memberByPni n number with joinedAt := revision } := by
  rw [GroupClient.openPniAcceptance, pniIdentity, openPerson_presenter presents,
    doorkeeper.openIdentity_sealIdentity]
  rfl

end

theorem openActions_rebase_acceptances :
    let group : Snapshot := {
      members := [administrator 1, member 5]
      invites := [invite 2, invite 4] }
    let actions : Sealed.Actions := {
      revision := 1
      newMembers := [{ added := some (sealedMember 2) }, { added := some (sealedMember 3) }]
      newRequests := [{ added := some (sealedRequest 4) }]
      acceptedPniInvites := [pniIdentity 5 6] }
    let change : Change := {
      editor := aci 5
      revision := 1
      newMembers := [{ member 2 with joinedAt := 1 }, { member 3 with joinedAt := 1 }]
      newRequests := [request 4]
      acceptedPniInvites := [{ memberByPni 5 6 with joinedAt := 1 }] }
    (change.rebase group).acceptedInvites =
        [{ member 2 with joinedAt := 1 }, { member 4 with joinedAt := 1 }] ∧
      ∃ editor,
        (doorkeeper.openActions (actions.rebase group change) (some (.aci (uuid 1)))).outcome =
          .ok { change.rebase group with editor } := by
  intro group actions change
  have opens : doorkeeper.Opens actions change := by
    constructor
    case newMembers =>
      exact mapM_cons_eq_ok_iff.2 ⟨_, _, open_addition (by decide) 1,
        mapM_singleton_eq_ok (open_addition (by decide) 1), rfl⟩
    case newRequests =>
      exact mapM_singleton_eq_ok (open_request (by decide))
    case acceptedPniInvites =>
      exact mapM_singleton_eq_ok (openPniAcceptance_pniIdentity (by decide) 1 6)
    all_goals rfl
  have opened : (doorkeeper.openActions actions (some (.aci (uuid 1)))).outcome = .ok change :=
    GroupClient.openActions_eq_ok_iff.2 ⟨opens, rfl⟩
  have presented : actions.Presented := by
    constructor
    · intro entry mem added given
      rcases List.mem_pair.1 mem with rfl | rfl
      · cases given
        exact ⟨(presentation 2).toBytes_ne_nil, rfl⟩
      · cases given
        exact ⟨(presentation 3).toBytes_ne_nil, rfl⟩
    · intro entry mem added given
      rw [List.mem_singleton.1 mem] at given
      cases given
      exact (presentation 4).toBytes_ne_nil
  constructor
  · decide +kernel
  · exact GroupClient.openActions_rebase group opened presented

end Sample

end SealedGroups
