import SealedGroups.Proofs.Portion

/-!
# Entries without an effect

An entry that has no effect on a group may be left out of a change (`after_filter_of_idle`), as no
other entry of a change that names everyone once gives it one. When a change can be applied, the
entries that rebasing drops are of this kind (`idle_of_not_survives`), as long as nobody it brings
in is there already: a role that is held, an invite that is there, a ban that is gone.
-/

namespace SealedGroups

-- what the steps are one by one is of no interest here
attribute [local irreducible] Change.steps

namespace Step

/-- Whether rebasing keeps a step, if only to turn it into another. -/
def survives (group : Snapshot) : Step → Bool
  | .add member => !group.hasMember member.aci
  | .remove aci => group.hasMember aci
  | .changeRole entry => (group.lastMember? entry.aci).any (·.role != entry.role)
  | .changeProfileKey entry => (group.lastMember? entry.aci).any (·.profileKey != entry.profileKey)
  | .invite entry => !(group.hasMember entry.invitee || group.hasInvitee entry.invitee)
  | .revoke entry => group.hasInvite entry.ciphertext || group.hasInvitee entry.invitee
  | .accept member => group.hasInvitee member.aci
  | .setAttributes _ => true
  | .request entry => group.stillToRequest entry
  | .refuse aci => group.hasRequest aci
  | .approve _ entry => group.hasRequest entry.aci
  | .ban entry => !group.hasBan entry.serviceId
  | .liftBan entry => group.hasBan entry.serviceId
  | .acceptPni member => !group.hasMember member.aci

/-- What makes a step one without an effect. -/
def Idle (group : Snapshot) : Step → Prop
  | .changeRole entry => ∀ member ∈ group.members, member.aci = entry.aci → member.role = entry.role
  | .changeProfileKey entry =>
    ∀ member ∈ group.members, member.aci = entry.aci → member.profileKey = entry.profileKey
  | .invite entry => entry.invitee ≠ [] ∧
    ∃ known ∈ group.invites, known.invitee = entry.invitee ∧ known.ciphertext = entry.ciphertext
  | .revoke entry => entry.ciphertext ∉ group.ciphertexts
  | .refuse aci => aci ∉ group.requesters
  | .approve _ entry => entry.aci ∉ group.requesters
  | .ban entry => entry.serviceId ∈ group.banned
  | .liftBan entry => entry.serviceId ∉ group.banned
  | _ => False

end Step

namespace Snapshot

/-! ### What an idle step does, and what it stays under others -/

section

variable {group : Snapshot} {step : Step}

theorem effect_of_idle (idle : step.Idle group) : step.effect group = group := by
  cases step with
  | changeRole entry =>
    have same : modifyFirst (·.aci == entry.aci) ({ · with role := entry.role }) group.members =
        group.members := by
      apply modifyFirst_eq_self
      intro member mem fit
      rw [← idle member mem (beq_iff_eq.1 fit)]
    exact congrArg (fun members => { group with members }) same
  | changeProfileKey entry =>
    have same : modifyFirst (·.aci == entry.aci) ({ · with profileKey := entry.profileKey })
        group.members = group.members := by
      apply modifyFirst_eq_self
      intro member mem fit
      rw [← idle member mem (beq_iff_eq.1 fit)]
    exact congrArg (fun members => { group with members }) same
  | invite entry =>
    obtain ⟨-, known, mem, -, same⟩ := idle
    have there : group.invites.any (·.ciphertext == entry.ciphertext) = true :=
      -- the invite is found by its ciphertext, and adds nothing
      any_key_iff.2 (List.mem_map.2 ⟨known, mem, same⟩)
    exact congrArg (fun invites => { group with invites }) (if_pos there)
  | revoke entry =>
    have same := eraseP_of_any_eq_false (mt any_key_iff.1 idle)
    exact congrArg (fun invites => { group with invites }) same
  | refuse aci =>
    have same := eraseP_of_any_eq_false (mt any_key_iff.1 idle)
    exact congrArg (fun requests => { group with requests }) same
  | approve revision entry =>
    have absent : ¬ group.requests.any (·.aci == entry.aci) = true := mt any_key_iff.1 idle
    have same := eraseP_of_any_eq_false absent
    have found : group.requests.find? (·.aci == entry.aci) = none := by
      rw [List.find?_eq_none]
      intro request mem fit
      exact absent (List.any_eq_true.2 ⟨request, mem, fit⟩)
    simp only [Step.effect, Step.onAttributes, Step.onMembers, Step.onInvites, Step.onRequests,
      Step.onBans, found, same, Option.map_none, Option.toList_none, List.append_nil]
  | ban entry =>
    exact congrArg (fun bans => { group with bans }) (if_pos (any_key_iff.2 idle))
  | liftBan entry =>
    have same := eraseP_of_any_eq_false (mt any_key_iff.1 idle)
    exact congrArg (fun bans => { group with bans }) same
  | _ => exact absurd idle id

/-- No step that may stand in the same change gives an idle step an effect. -/
theorem idle_effect {s : Step} (compatible : s.Compatible step) (named : step.Named)
    (idle : step.Idle group) : step.Idle (s.effect group) := by
  have stranger : s.Apart step → ∀ id ∈ step.ids, id ≠ [] → id ∉ s.ids := fun apart => apart.symm.1
  have readable : ∀ {id : Bytes}, [] ∉ [id] → id ≠ [] :=
    fun named empty => named (List.mem_singleton.2 empty.symm)
  have alone : step.sharesMember s = false → step.Apart s := compatible.symm.apart
  cases step with
  | changeRole entry =>
    apply value_effect _ idle
    rcases compatible with apart | shares
    · left
      intro about
      exact stranger apart _ List.mem_cons_self (readable named) (s.memberIds_subset_ids about)
    · -- only the other of the two changes of a member can share it, and it keeps this value
      right
      cases s with
      | changeProfileKey other =>
        apply map_modifyFirst
        intro member _
        rfl
      | _ => cases shares
  | changeProfileKey entry =>
    apply value_effect _ idle
    rcases compatible with apart | shares
    · left
      intro about
      exact stranger apart _ List.mem_cons_self (readable named) (s.memberIds_subset_ids about)
    · right
      cases s with
      | changeRole other =>
        apply map_modifyFirst
        intro member _
        rfl
      | _ => cases shares
  | invite entry =>
    obtain ⟨readable, known, mem, invitee, ciphertext⟩ := idle
    obtain ⟨ids, ciphertexts, -⟩ := alone rfl
    -- the invite that makes the entry superfluous is about the same person, so nobody takes it
    refine ⟨readable, known, mem_invites_effect_of_not_touches ?_ mem, invitee, ciphertext⟩
    intro touches
    rcases Step.mem_ids_or_mem_ciphertexts_of_touchesInvite touches with named | named
    · exact ids _ List.mem_cons_self readable (invitee ▸ named)
    · exact ciphertexts _ List.mem_cons_self (ciphertext ▸ named)
  | revoke entry =>
    -- nobody else brings in an invite of this ciphertext
    intro there
    obtain ⟨invite, mem, ciphertext⟩ := List.mem_map.1 there
    rcases mem_invites_effect mem with old | rfl
    · exact idle (List.mem_map.2 ⟨invite, old, ciphertext⟩)
    · exact (alone rfl).2.1 _ List.mem_cons_self (List.mem_singleton.2 ciphertext.symm)
  | refuse aci =>
    have apart := (alone rfl).1 _ List.mem_cons_self (readable named)
    have same := count_requesters_effect (fun about => apart (s.requestIds_subset_ids about)) group
    exact List.count_eq_zero.1 (same.trans (List.count_eq_zero.2 idle))
  | approve revision entry =>
    have apart := (alone rfl).1 _ List.mem_cons_self (readable named)
    have same := count_requesters_effect (fun about => apart (s.requestIds_subset_ids about)) group
    exact List.count_eq_zero.1 (same.trans (List.count_eq_zero.2 idle))
  | ban entry =>
    have same := count_banned_effect ((alone rfl).2.2 _ List.mem_cons_self) group
    exact List.count_pos_iff.1 (same ▸ List.count_pos_iff.2 idle)
  | liftBan entry =>
    have same := count_banned_effect ((alone rfl).2.2 _ List.mem_cons_self) group
    exact List.count_eq_zero.1 (same.trans (List.count_eq_zero.2 idle))
  | _ => exact idle

end

/-- Idle steps may be left out. -/
theorem after_filter_of_idle {keep : Step → Bool} {group : Snapshot} {steps : List Step}
    (names : steps.Pairwise Step.Compatible) (named : ∀ step ∈ steps, step.Named)
    (idle : ∀ step ∈ steps, keep step = false → step.Idle group) (admits : group.admits steps) :
    group.admits (steps.filter keep) ∧ group.after (steps.filter keep) = group.after steps := by
  induction steps generalizing group with
  | nil => exact ⟨trivial, rfl⟩
  | cons step rest ih =>
    obtain ⟨compatible, names⟩ := List.pairwise_cons.1 names
    obtain ⟨-, named⟩ := List.forall_mem_cons.1 named
    obtain ⟨stepIdle, idle⟩ := List.forall_mem_cons.1 idle
    -- what is superfluous stays so when another step is taken
    have later : ∀ s ∈ rest, keep s = false → s.Idle (step.effect group) := by
      intro s hs dropped
      exact idle_effect (compatible s hs) (named s hs) (idle s hs dropped)
    have tail := ih names named later admits.2
    cases kept : keep step with
    | true =>
      rw [List.filter_cons_of_pos kept]
      exact ⟨⟨admits.1, tail.1⟩, tail.2⟩
    | false =>
      -- the step that is dropped changes nothing, so what follows sees the same group
      rw [effect_of_idle (stepIdle kept)] at tail
      rw [List.filter_cons_of_neg (Bool.eq_false_iff.1 kept), after_cons,
        effect_of_idle (stepIdle kept)]
      exact tail

/-! ### What rebasing drops -/

/-- When the turn of a step of a change comes, it finds what it needs; and no step before it is
about the same. -/
theorem ready_of_mem {group : Snapshot} {steps : List Step} {step : Step}
    (names : steps.Pairwise Step.Compatible) (admits : group.admits steps) (mem : step ∈ steps) :
    ∃ before, (∀ s ∈ before, s.Compatible step) ∧ step.ready (group.after before) := by
  obtain ⟨before, later, rfl⟩ := List.append_of_mem mem
  refine ⟨before, ?_, (admits_append.1 admits).2.1⟩
  intro s hs
  exact (List.pairwise_append.1 names).2.2 s hs step List.mem_cons_self

/-- Nobody becomes a member before a step about their membership. -/
theorem not_mem_memberAcis_before {group : Snapshot} {before : List Step} {step : Step} {id : Bytes}
    (compatible : ∀ s ∈ before, s.Compatible step) (about : id ∈ step.ids) (readable : id ≠ [])
    (stranger : id ∉ group.memberAcis) : id ∉ (group.after before).memberAcis := by
  apply after_keeps (P := fun g => id ∉ g.memberAcis) _ stranger
  intro s hs g stranger
  rcases compatible s hs with apart | shares
  · refine not_mem_memberAcis_effect ?_ stranger
    exact fun mem => apart.symm.1 id about readable (s.memberIds_subset_ids mem)
  · rw [memberAcis_effect]
    cases s with
    | changeRole entry => exact stranger
    | changeProfileKey entry => exact stranger
    | _ => cases shares

end Snapshot

/-- A change that names everyone once, and that brings in nobody who is there already. -/
structure Change.Unopposed (change : Change) (group : Snapshot) : Prop where
  names : change.NamesOnce
  named : ∀ step ∈ change.steps, step.Named
  coherent : Coherent (group.sealings ++ change.sealings)
  added_new : ∀ member ∈ change.newMembers, member.aci ∉ group.memberAcis
  asking_new : ∀ request ∈ change.newRequests, request.aci ∉ group.identities
  pniAccepted_new : ∀ member ∈ change.acceptedPniInvites, member.aci ∉ group.memberAcis

namespace Snapshot

/-- In a group where nobody is a member twice, what holds of the last member with an account holds
of the one there is. -/
theorem of_lastMember {group : Snapshot} (once : group.memberAcis.Nodup) {id : Bytes}
    (there : id ∈ group.memberAcis) {test : Member → Bool}
    (h : (group.lastMember? id).any test = false) :
    ∀ member ∈ group.members, member.aci = id → test member = false := by
  cases last : group.lastMember? id with
  | none =>
    obtain ⟨member, mem, same⟩ := List.mem_map.1 there
    -- some entry has the name, so the search cannot come back empty
    have none := List.find?_eq_none.1 last member (List.mem_reverse.2 mem)
    exact absurd (beq_iff_eq.2 same) none
  | some found =>
    obtain ⟨mem, same⟩ := lastMember_mem last
    rw [last] at h
    intro member hmem aci
    rw [List.inj_on_of_nodup_map once hmem mem (aci.trans same.symm)]
    exact h

/-- What rebasing drops of a change that can be applied, and that nothing in the group stands
against, has no effect. -/
theorem idle_of_not_survives {group : Snapshot} {change : Change} (once : group.OneStanding)
    (free : change.Unopposed group)
    (readable : [] ∈ group.memberAcis → ∀ invite ∈ change.newInvites, invite.invitee ≠ [])
    (admits : group.admits change.steps) {step : Step} (mem : step ∈ change.steps)
    (dropped : step.survives group = false) : step.Idle group := by
  have named := free.named step mem
  obtain ⟨before, compatible, ready⟩ := ready_of_mem free.names admits mem
  have known : ∀ {id : Bytes}, [] ∉ [id] → id ≠ [] :=
    fun named empty => named (List.mem_singleton.2 empty.symm)
  -- whoever is a member when their turn comes was one at first
  have member_before : ∀ id ∈ step.ids, id ≠ [] → id ∈ (group.after before).memberAcis →
      id ∈ group.memberAcis := by
    intro id about readable there
    by_contra stranger
    exact not_mem_memberAcis_before compatible about readable stranger there
  have apart : ∀ s ∈ before, s.sharesMember step = false → s.Apart step :=
    fun s hs => (compatible s hs).apart
  cases step with
  | add member =>
    have new := free.added_new member (Change.mem_steps.1 mem)
    exact absurd (hasMember_iff.1 (by simpa [Step.survives] using dropped)) new
  | remove aci =>
    have there := member_before aci List.mem_cons_self (known named) ready
    rw [Step.survives, hasMember_iff.2 there] at dropped
    cases dropped
  | changeRole entry =>
    have there := member_before entry.aci List.mem_cons_self (known named) ready.2
    intro member hmem same
    simpa using of_lastMember once.members there dropped member hmem same
  | changeProfileKey entry =>
    have there := member_before entry.aci List.mem_cons_self (known named) ready
    intro member hmem same
    simpa using of_lastMember once.members there dropped member hmem same
  | invite entry =>
    have there : entry ∈ change.newInvites := Change.mem_steps.1 mem
    simp only [Step.survives, Bool.not_eq_false', Bool.or_eq_true, hasMember_iff,
      hasInvitee_iff] at dropped
    -- an invitee who is a member would stop the change, as nobody in it removes them
    rcases dropped with member | ⟨named, invited⟩
    · have named : entry.invitee ≠ [] := by
        intro empty
        exact readable (empty ▸ member) entry there empty
      have stays : .remove entry.invitee ∉ before := by
        intro removed
        exact (apart _ removed rfl).1 _ List.mem_cons_self named List.mem_cons_self
      exact absurd (mem_memberAcis_after member stays) (ready named)
    · -- who is invited already is so under the same ciphertext
      obtain ⟨invite, hinvite, same⟩ := List.mem_map.1 invited
      have here : (invite.invitee, invite.ciphertext) ∈ group.sealings ++ change.sealings :=
        List.mem_append_left _ (List.mem_map_of_mem hinvite)
      have new : (entry.invitee, entry.ciphertext) ∈ group.sealings ++ change.sealings :=
        List.mem_append_right _ (Change.sealings_of_mem_steps mem List.mem_cons_self)
      have ciphertext := (free.coherent _ here _ new).2 (same ▸ named) same
      exact ⟨named, invite, hinvite, same, ciphertext⟩
  | revoke entry =>
    intro there
    rw [Step.survives, hasInvite_iff.2 there] at dropped
    cases dropped
  | accept member =>
    -- only an invite made by the change itself could have come in between
    obtain ⟨invite, hinvite, same⟩ := List.mem_map.1 ready
    rcases mem_invites_after hinvite with old | new
    · have invited : group.hasInvitee member.aci = true :=
        hasInvitee_iff.2 ⟨known named, same ▸ List.mem_map_of_mem old⟩
      rw [Step.survives, invited] at dropped
      cases dropped
    · have other := (apart _ new rfl).1 _ List.mem_cons_self (same ▸ known named)
      exact absurd (List.mem_singleton.2 same) other
  | setAttributes new => cases dropped
  | request entry =>
    have stranger := free.asking_new entry (Change.mem_steps.1 mem)
    rw [mem_identities, not_or, not_or] at stranger
    obtain ⟨notMember, notInvited, notRequesting⟩ := stranger
    have member := Bool.eq_false_iff.2 (mt hasMember_iff.1 notMember)
    have requesting := Bool.eq_false_iff.2 (mt hasRequest_iff.1 notRequesting)
    have invited := Bool.eq_false_iff.2 (mt (And.symm ∘ hasInvitee_iff.1) notInvited)
    rw [Step.survives, stillToRequest, member, requesting, invited] at dropped
    cases dropped
  | refuse aci =>
    intro there
    rw [Step.survives, hasRequest_iff.2 there] at dropped
    cases dropped
  | approve revision entry =>
    intro there
    rw [Step.survives, hasRequest_iff.2 there] at dropped
    cases dropped
  | ban entry => exact hasBan_iff.1 (by simpa [Step.survives] using dropped)
  | liftBan entry =>
    intro there
    rw [Step.survives, hasBan_iff.2 there] at dropped
    cases dropped
  | acceptPni member =>
    have new := free.pniAccepted_new member (Change.mem_steps.1 mem)
    exact absurd (hasMember_iff.1 (by simpa [Step.survives] using dropped)) new

/-- Without the steps that rebasing drops, a change that nothing stands against does the same. -/
theorem after_survivors {group : Snapshot} {change : Change} (once : group.OneStanding)
    (free : change.Unopposed group)
    (readable : [] ∈ group.memberAcis → ∀ invite ∈ change.newInvites, invite.invitee ≠ [])
    (admits : group.admits change.steps) :
    group.admits (change.steps.filter (·.survives group))
      ∧ group.after (change.steps.filter (·.survives group)) = group.after change.steps :=
  after_filter_of_idle free.names free.named
    (fun _ mem dropped => idle_of_not_survives once free readable admits mem dropped) admits

end Snapshot

end SealedGroups
