import SealedGroups.Proofs.Emptiness

/-!
# Taking an account out of a group

An account can be taken out of a group without a look at where it stands: whatever is about it goes,
and the group moves to a new revision if anything went. In a group where everyone stands once, this
is what the one change does that removes the member, revokes the invite or refuses the request
(`withoutAccount_exact`). A list with a repetition would tell them apart, as a change takes out the
first match only, and an invite by its ciphertext.

Both sides are compared with a third, the group `without` an identity.
-/

namespace SealedGroups

/-- A list gets shorter without the entries under a key exactly if there is one. -/
theorem length_filter_key_ne_iff {α : Type} {key : α → Bytes} {entries : List α} {id : Bytes} :
    (entries.filter (key · != id)).length ≠ entries.length ↔ id ∈ entries.map key := by
  rw [Ne, List.length_filter_eq_length_iff]
  simp only [bne_iff_ne, not_forall, List.mem_map, exists_prop, Decidable.not_not]

theorem filter_key_of_not_mem {α : Type} {key : α → Bytes} {entries : List α} {id : Bytes}
    (absent : id ∉ entries.map key) : entries.filter (key · != id) = entries := by
  rw [List.filter_eq_self]
  intro a mem
  exact bne_iff_ne.2 fun same => absent (List.mem_map.2 ⟨a, mem, same⟩)

theorem find_key_of_not_mem {α : Type} {key : α → Bytes} {entries : List α} {id : Bytes}
    (absent : id ∉ entries.map key) : entries.find? (key · == id) = none := by
  rw [List.find?_eq_none]
  intro a mem fit
  exact absent (List.mem_map.2 ⟨a, mem, beq_iff_eq.1 fit⟩)

/-- Where a key is there once at most, one entry at most has it. -/
theorem eq_of_count_key_le_one {α : Type} {key : α → Bytes} {entries : List α} {id : Bytes}
    (once : (entries.map key).count id ≤ 1) {a b : α} (ha : a ∈ entries) (hb : b ∈ entries)
    (fit : key a = id) (fit' : key b = id) : a = b := by
  -- both entries are in what the list has for this identity, and that is one entry
  have first : a ∈ entries.filter (key · == id) := List.mem_filter.2 ⟨ha, beq_iff_eq.2 fit⟩
  have second : b ∈ entries.filter (key · == id) := List.mem_filter.2 ⟨hb, beq_iff_eq.2 fit'⟩
  rw [Snapshot.count_map_key] at once
  have here := List.length_pos_of_mem first
  obtain ⟨only, listed⟩ := List.length_eq_one_iff.1 (Nat.le_antisymm once here)
  rw [listed, List.mem_singleton] at first second
  rw [first, second]

namespace Snapshot

/-- The group without the entries of an identity, wherever they are. -/
def without (group : Snapshot) (id : Bytes) : Snapshot :=
  { group with
    members := group.members.filter (·.aci != id)
    invites := group.invites.filter (·.invitee != id)
    requests := group.requests.filter (·.aci != id) }

variable {group : Snapshot} {id : Bytes}

theorem not_mem_identities_without (group : Snapshot) (id : Bytes) :
    id ∉ (group.without id).identities := by
  -- filtering by the identity leaves nothing of it in any of the lists
  have gone : ∀ {α : Type} (key : α → Bytes) (entries : List α),
      id ∉ (entries.filter (key · != id)).map key := by
    intro α key entries mem
    obtain ⟨a, there, same⟩ := List.mem_map.1 mem
    exact bne_iff_ne.1 (List.mem_filter.1 there).2 same
  rw [mem_identities]
  rintro (member | ⟨invited, -⟩ | requesting)
  · exact gone _ _ member
  · exact gone _ _ invited
  · exact gone _ _ requesting

/-- Who has no standing in a group is not found there. -/
theorem not_found_of_not_mem {aci : Uuid} (absent : aci.toList ∉ group.identities) :
    group.member? aci = none ∧ group.invite? (.aci aci) = none ∧ group.request? aci = none := by
  rw [mem_identities, not_or, not_or] at absent
  obtain ⟨member, invited, requesting⟩ := absent
  have named : aci.toList ≠ [] := List.isEmpty_eq_false_iff.1 aci.isEmpty_toList
  exact ⟨find_key_of_not_mem member, find_key_of_not_mem fun mem => invited ⟨mem, named⟩,
    find_key_of_not_mem requesting⟩

theorem withoutAccount_eq (group : Snapshot) (aci : Uuid) (revision : UInt32) :
    group.withoutAccount aci revision =
      if aci.toList ∈ group.identities then (group.without aci.toList).atRevision revision
      else group := by
  have named : aci.toList ≠ [] := List.isEmpty_eq_false_iff.1 aci.isEmpty_toList
  have known : aci.toList ∈ group.identities ↔ aci.toList ∈ group.members.map (·.aci)
      ∨ aci.toList ∈ group.invites.map (·.invitee) ∨ aci.toList ∈ group.requests.map (·.aci) := by
    rw [mem_identities, and_iff_left named]
    rfl
  simp only [withoutAccount, length_filter_key_ne_iff, known]
  rfl

/-! ### What the changes do -/

section

variable (once : group.identities.Nodup) (named : id ≠ [])

include once named

/-- An identity stands in one list at most, and there once. -/
theorem standings_le_one :
    group.memberAcis.count id + group.invitees.count id + group.requesters.count id ≤ 1 := by
  have standing := List.nodup_iff_count_le_one.1 once id
  rwa [count_identities named] at standing

theorem effect_remove (member : id ∈ group.memberAcis) :
    (Step.remove id).effect group = group.without id := by
  -- by their one standing, a member is neither invited nor asking
  have here := List.count_pos_iff.2 member
  have standing := standings_le_one once named
  have uninvited : id ∉ group.invitees := List.count_eq_zero.1 (by omega)
  have notRequesting : id ∉ group.requesters := List.count_eq_zero.1 (by omega)
  have first : group.members.eraseP (·.aci == id) = group.members.filter (·.aci != id) := by
    apply eraseP_key_eq_filter
    change group.memberAcis.count id ≤ 1
    omega
  unfold without
  rw [filter_key_of_not_mem uninvited, filter_key_of_not_mem notRequesting, ← first]
  rfl

theorem effect_refuse (requesting : id ∈ group.requesters) :
    (Step.refuse id).effect group = group.without id := by
  have here := List.count_pos_iff.2 requesting
  have standing := standings_le_one once named
  have notMember : id ∉ group.memberAcis := List.count_eq_zero.1 (by omega)
  have uninvited : id ∉ group.invitees := List.count_eq_zero.1 (by omega)
  have first : group.requests.eraseP (·.aci == id) = group.requests.filter (·.aci != id) := by
    apply eraseP_key_eq_filter
    change group.requesters.count id ≤ 1
    omega
  unfold without
  rw [filter_key_of_not_mem notMember, filter_key_of_not_mem uninvited, ← first]
  rfl

/-- Where no ciphertext is there twice, the invite with a ciphertext is the one of its invitee. -/
theorem effect_revoke (distinct : group.ciphertexts.Nodup) {invite : Invite}
    (mem : invite ∈ group.invites) (invited : invite.invitee = id) (invitee : Bytes) :
    (Step.revoke ⟨invitee, invite.ciphertext⟩).effect group = group.without id := by
  have here : 0 < group.invitees.count id :=
    List.count_pos_iff.2 (List.mem_map.2 ⟨invite, mem, invited⟩)
  have standing := standings_le_one once named
  have notMember : id ∉ group.memberAcis := List.count_eq_zero.1 (by omega)
  have notRequesting : id ∉ group.requesters := List.count_eq_zero.1 (by omega)
  have alone : (group.invites.map (·.invitee)).count id ≤ 1 := by
    change group.invitees.count id ≤ 1
    omega
  have first : group.invites.eraseP (·.ciphertext == invite.ciphertext) =
      group.invites.filter (·.invitee != id) := by
    -- the ciphertext picks the same entry as the account
    refine (eraseP_key_eq_filter (List.nodup_iff_count_le_one.1 distinct _)).trans ?_
    apply List.filter_congr
    intro other there
    rw [Bool.eq_iff_iff, bne_iff_ne, bne_iff_ne]
    refine not_congr ⟨fun sealed => ?_, fun fits => ?_⟩
    · rw [List.inj_on_of_nodup_map distinct there mem sealed, invited]
    · rw [eq_of_count_key_le_one alone there mem fits invited]
  unfold without
  rw [filter_key_of_not_mem notMember, filter_key_of_not_mem notRequesting, ← first]
  rfl

end

/-- A change of one entry, which sets no attribute, does what the entry does. -/
theorem apply_of_step {change : Change} (step : Step) {result : Snapshot}
    (attributes : change.AttributesUnset)
    (steps : change.steps = [step, .setAttributes change]
      ∨ change.steps = [.setAttributes change, step])
    (ready : step.ready (group.atRevision change.revision))
    (effect : step.effect (group.atRevision change.revision) = result) :
    group.apply change = .ok result := by
  have idle : ∀ group : Snapshot, (Step.setAttributes change).effect group = group :=
    attributes.setAttributes_eq
  apply apply_eq_ok_iff.2
  -- setting attributes that are unset does nothing, on either side of the step
  rcases steps with only | only
  · rw [only, after_cons, after_cons, after_nil, idle]
    exact ⟨⟨ready, trivial, trivial⟩, effect⟩
  · rw [only, after_cons, after_cons, after_nil, idle]
    refine ⟨⟨trivial, ?_, trivial⟩, effect⟩
    rwa [idle]

/-! ### The two compared -/

/-- In a group where everyone stands once and no invite is there twice, an account is taken out as
by the change that removes the member, revokes the invite by its ciphertext or refuses the request,
and the group stays as it is if the account has no standing. Afterwards the account is not found,
and taking it out again changes nothing. -/
theorem withoutAccount_exact (once : group.identities.Nodup) (distinct : group.ciphertexts.Nodup)
    (aci : Uuid) (revision : UInt32) (editor : Bytes) :
    let rest := group.withoutAccount aci revision
    (aci.toList ∈ group.memberAcis →
        group.apply { editor, revision, removedMembers := [aci.toList] } = .ok rest)
      ∧ (∀ invite ∈ group.invites, invite.invitee = aci.toList → ∀ invitee,
        group.apply { editor, revision, revokedInvites := [⟨invitee, invite.ciphertext⟩] } =
          .ok rest)
      ∧ (aci.toList ∈ group.requesters →
        group.apply { editor, revision, refusedRequests := [aci.toList] } = .ok rest)
      ∧ (aci.toList ∉ group.identities → rest = group)
      ∧ rest.member? aci = none ∧ rest.invite? (.aci aci) = none ∧ rest.request? aci = none
      ∧ ∀ later, rest.withoutAccount aci later = rest := by
  intro rest
  -- an invite that cannot be read has the empty identity, which is no account's
  have named : aci.toList ≠ [] := List.isEmpty_eq_false_iff.1 aci.isEmpty_toList
  -- invites, members and requests do not depend on the revision that the change moves to first
  have once : (group.atRevision revision).identities.Nodup := once
  have unset : ∀ removedMembers revokedInvites refusedRequests, Change.AttributesUnset
      { editor, revision, removedMembers, revokedInvites, refusedRequests } := by
    intro _ _ _
    constructor <;> rfl
  have known : aci.toList ∈ group.identities →
      rest = (group.atRevision revision).without aci.toList := fun mem =>
    (withoutAccount_eq group aci revision).trans (if_pos mem)
  have unknown : aci.toList ∉ group.identities → rest = group := fun mem =>
    (withoutAccount_eq group aci revision).trans (if_neg mem)
  have gone : aci.toList ∉ rest.identities := by
    by_cases mem : aci.toList ∈ group.identities
    · rw [known mem]
      exact not_mem_identities_without _ _
    · rwa [unknown mem]
  obtain ⟨notMember, notInvited, notRequesting⟩ := not_found_of_not_mem gone
  refine ⟨?_, ?_, ?_, unknown, notMember, notInvited, notRequesting, ?_⟩
  · intro member
    rw [known (mem_identities.2 (.inl member))]
    refine apply_of_step (.remove aci.toList) (unset _ _ _) (.inl ?_) ?_ ?_
    · simp [Change.steps]
    · exact member
    · exact effect_remove once named member
  · intro invite mem invited invitee
    have there : aci.toList ∈ group.invitees := List.mem_map.2 ⟨invite, mem, invited⟩
    rw [known (mem_identities.2 (.inr (.inl ⟨there, named⟩)))]
    -- the invite is found by its ciphertext, whatever invitee the revocation states
    refine apply_of_step (.revoke ⟨invitee, invite.ciphertext⟩) (unset _ _ _) (.inl ?_) ?_ ?_
    · simp [Change.steps]
    · exact trivial
    · exact effect_revoke once named distinct mem invited invitee
  · intro requesting
    rw [known (mem_identities.2 (.inr (.inr requesting)))]
    refine apply_of_step (.refuse aci.toList) (unset _ _ _) (.inr ?_) ?_ ?_
    · simp [Change.steps]
    · exact trivial
    · exact effect_refuse once named requesting
  · intro later
    exact (withoutAccount_eq rest aci later).trans (if_neg gone)

end Snapshot

namespace Sample

/-- One of the invites hides nobody. An account that was invited is taken out, and one that has no
standing. -/
theorem withoutAccount_exact_sample :
    let group : Snapshot := {
      revision := 4
      members := [administrator 1, member 2]
      invites := [pniInvite 3, { invite 5 with invitee := [] }, invite 6]
      requests := [request 4] }
    group.identities.Nodup ∧ group.ciphertexts.Nodup
      ∧ group.apply { revision := 9, revokedInvites := [revocation 6] } =
        .ok (group.withoutAccount (uuid 6) 9)
      ∧ group.withoutAccount (uuid 6) 9 =
        { group with revision := 9, invites := [pniInvite 3, { invite 5 with invitee := [] }] }
      ∧ group.withoutAccount (uuid 3) 9 = group := by
  intro group
  have once : group.identities.Nodup := by decide +kernel
  have distinct : group.ciphertexts.Nodup := by decide +kernel
  obtain ⟨-, revoked, -⟩ := Snapshot.withoutAccount_exact once distinct (uuid 6) 9 []
  obtain ⟨-, -, -, unchanged, -⟩ := Snapshot.withoutAccount_exact once distinct (uuid 3) 9 []
  refine ⟨once, distinct, revoked (invite 6) ?_ rfl (aci 6), ?_, unchanged ?_⟩
  · decide +kernel
  · decide +kernel
  · decide +kernel

end Sample

end SealedGroups
