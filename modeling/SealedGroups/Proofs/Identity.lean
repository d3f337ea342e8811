import SealedGroups.Proofs.Step.Effect
import SealedGroups.Samples

/-!
# Everyone stands in a group once

In a group an identity is a member, or invited, or asks to be let in, and never two of these; and no
invite, by its ciphertext, and no ban is there twice. Changes keep this (`oneStanding_of_reaches`),
if each of them is consistent with the group it is applied to. Adds, removals, revocations,
acceptances, refusals, approvals and bans need no condition for it, apart from having a name at all:
a repeated add takes the place of the earlier one, and whoever is added leaves the other lists.

What carries the proof from slot to slot is that the steps still to come fit the group (`Fits`):
whoever they bring in new is not there yet.
-/

namespace SealedGroups

/-! ### The invariant -/

namespace Snapshot

/-- Everyone in the group: members, readable invitees and requesters. -/
def identities (group : Snapshot) : List Bytes :=
  group.memberAcis ++ group.invitees.filter (!·.isEmpty) ++ group.requesters

/-- Nobody is in the group twice, no invite is there twice, and nobody is banned twice. -/
structure OneStanding (group : Snapshot) : Prop where
  identities : group.identities.Nodup
  ciphertexts : group.ciphertexts.Nodup
  banned : group.banned.Nodup

/-- Members and requesters are known by name. -/
structure Named (group : Snapshot) : Prop where
  members : [] ∉ group.memberAcis
  requests : [] ∉ group.requesters

end Snapshot

/-- A change that brings in only who is not in the group yet. Adds, removals, revocations, refusals,
approvals and bans are free, and so are acceptances; invites may repeat if they are the same. -/
structure Change.Consistent (change : Change) (group : Snapshot) : Prop where
  added_named : ∀ member ∈ change.newMembers, member.aci ≠ []
  accepted_named : ∀ member ∈ change.acceptedInvites, member.aci ≠ []
  request_named : ∀ request ∈ change.newRequests, request.aci ≠ []
  pniAccepted_named : ∀ member ∈ change.acceptedPniInvites, member.aci ≠ []
  /-- One identity has one ciphertext, among the invites that are there and those that are made. -/
  sameCiphertext : ∀ i ∈ group.invites ++ change.newInvites,
    ∀ j ∈ group.invites ++ change.newInvites,
    i.invitee ≠ [] → i.invitee = j.invitee → i.ciphertext = j.ciphertext
  invitee_not_requesting : ∀ invite ∈ change.newInvites, invite.invitee ∉ group.requesters
  /-- Those who ask to be let in and those who accept an invite to a phone number identity. -/
  newcomers_nodup :
    (change.newRequests.map (·.aci) ++ change.acceptedPniInvites.map (·.aci)).Nodup
  newcomers_new :
    ∀ id ∈ change.newRequests.map (·.aci) ++ change.acceptedPniInvites.map (·.aci),
      id ∉ group.identities
  newcomers_unnamed :
    ∀ id ∈ change.newRequests.map (·.aci) ++ change.acceptedPniInvites.map (·.aci),
      id ∉ change.newMembers.map (·.aci) ∧ id ∉ change.newInvites.map (·.invitee)
        ∧ id ∉ change.acceptedInvites.map (·.aci)

/-- The second group comes out of the first by changes, each consistent with the group it is applied
to. -/
inductive Snapshot.Reaches (group : Snapshot) : Snapshot → Prop where
  | start : group.Reaches group
  | step {middle next : Snapshot} {change : Change} (run : group.Reaches middle)
      (consistent : change.Consistent middle) (applied : middle.apply change = .ok next) :
      group.Reaches next

/-! ### What the lists are made of -/

namespace Snapshot

theorem mem_identities {group : Snapshot} {id : Bytes} :
    id ∈ group.identities ↔
      id ∈ group.memberAcis ∨ (id ∈ group.invitees ∧ id ≠ []) ∨ id ∈ group.requesters := by
  simp [identities]

/-- How often an identity stands in the group. -/
def standings (group : Snapshot) (id : Bytes) : Nat :=
  group.memberAcis.count id + group.invitees.count id + group.requesters.count id

theorem count_identities {group : Snapshot} {id : Bytes} (named : id ≠ []) :
    group.identities.count id = group.standings id := by
  have readable : (group.invitees.filter fun id => !id.isEmpty).count id =
      group.invitees.count id := by
    apply List.count_filter
    simpa using named
  rw [identities, List.count_append, List.count_append, readable, standings]

theorem OneStanding.members {group : Snapshot} (once : group.OneStanding) :
    group.memberAcis.Nodup :=
  (List.nodup_append.1 (List.nodup_append.1 once.identities).1).1

theorem OneStanding.requests {group : Snapshot} (once : group.OneStanding) :
    group.requesters.Nodup :=
  (List.nodup_append.1 once.identities).2.1

theorem OneStanding.invitee {group : Snapshot} (once : group.OneStanding) {id : Bytes}
    (named : id ≠ []) : group.invitees.count id ≤ 1 := by
  have standing := List.nodup_iff_count_le_one.1 once.identities id
  rw [count_identities named, standings] at standing
  omega

theorem OneStanding.requester_not_member {group : Snapshot} (once : group.OneStanding) {id : Bytes}
    (requests : id ∈ group.requesters) : id ∉ group.memberAcis := fun member =>
  (List.nodup_append.1 once.identities).2.2 id (List.mem_append_left _ member) id requests rfl

theorem OneStanding.invitee_not_member {group : Snapshot} (once : group.OneStanding) {id : Bytes}
    (named : id ≠ []) (invited : id ∈ group.invitees) : id ∉ group.memberAcis := by
  intro member
  have standing := List.nodup_iff_count_le_one.1 once.identities id
  have asMember := List.count_pos_iff.2 member
  have asInvitee := List.count_pos_iff.2 invited
  rw [count_identities named, standings] at standing
  omega

/-- With named members and requesters, nobody is in the group twice if nobody with a name is. -/
theorem nodup_identities_iff {group : Snapshot} (named : group.Named) :
    group.identities.Nodup ↔ ∀ id, id ≠ [] → group.standings id ≤ 1 := by
  rw [List.nodup_iff_count_le_one]
  constructor
  · intro h id hid
    rw [← count_identities hid]
    exact h id
  · intro h id
    by_cases hid : id = []
    · -- nobody has the empty name, so it is not counted at all
      have absent : id ∉ group.identities := by
        rw [mem_identities]
        rintro (hm | ⟨-, hne⟩ | hr)
        · exact named.members (hid ▸ hm)
        · exact hne hid
        · exact named.requests (hid ▸ hr)
      rw [List.count_eq_zero.2 absent]
      exact Nat.zero_le 1
    · rw [count_identities hid]
      exact h id hid

end Snapshot

/-! ### What steps bring in -/

namespace Step

/-- Whom a step brings in who was not known to the group. -/
def newcomers : Step → List Bytes
  | .request entry => [entry.aci]
  | .acceptPni member => [member.aci]
  | _ => []

/-- Whom a step makes a member who may have been known to the group. -/
def entrants : Step → List Bytes
  | .add member => [member.aci]
  | .accept member => [member.aci]
  | _ => []

end Step

namespace Snapshot

theorem mem_requesters_effect {group : Snapshot} {step : Step} {id : Bytes}
    (h : id ∈ (step.effect group).requesters) :
    id ∈ group.requesters ∨ id ∈ step.newcomers := by
  rw [requesters_effect] at h
  cases step with
  | add member => exact Or.inl (List.mem_of_mem_filter h)
  | request entry => exact List.mem_append.1 h
  | refuse aci => exact Or.inl (List.mem_of_mem_erase h)
  | approve revision entry => exact Or.inl (List.mem_of_mem_erase h)
  | _ => exact Or.inl h

theorem mem_memberAcis_effect {group : Snapshot} {step : Step} {id : Bytes}
    (h : id ∈ (step.effect group).memberAcis) :
    id ∈ group.memberAcis ∨ id ∈ group.requesters ∨ id ∈ step.entrants ∨ id ∈ step.newcomers := by
  rw [memberAcis_effect] at h
  cases step with
  | add member =>
    simp only [Step.onAcis] at h
    split at h
    · exact Or.inl h
    · rcases List.mem_append.1 h with old | new
      · exact Or.inl old
      · exact Or.inr (Or.inr (Or.inl new))
  | remove aci => exact Or.inl (List.mem_of_mem_erase h)
  | accept member =>
    rcases List.mem_append.1 h with old | new
    · exact Or.inl old
    · exact Or.inr (Or.inr (Or.inl new))
  | approve revision entry =>
    rcases List.mem_append.1 h with old | new
    · exact Or.inl old
    · split at new
      · rename_i requesting
        exact Or.inr (Or.inl (List.mem_singleton.1 new ▸ requesting))
      · cases new
  | acceptPni member =>
    rcases List.mem_append.1 h with old | new
    · exact Or.inl old
    · exact Or.inr (Or.inr (Or.inr new))
  | _ => exact Or.inl h

/-! ### Steps that fit a group -/

/-- The steps still to come bring in only who is not there yet. -/
structure Fits (group : Snapshot) (steps : List Step) : Prop where
  named : [] ∉ steps.flatMap Step.entrants ∧ [] ∉ steps.flatMap Step.newcomers
  sameCiphertext : ∀ i j, i ∈ group.invites ∨ .invite i ∈ steps →
    j ∈ group.invites ∨ .invite j ∈ steps →
    i.invitee ≠ [] → i.invitee = j.invitee → i.ciphertext = j.ciphertext
  invitee_not_requesting : ∀ i, .invite i ∈ steps → i.invitee ∉ group.requesters
  newcomers_nodup : (steps.flatMap Step.newcomers).Nodup
  newcomers_new : ∀ id ∈ steps.flatMap Step.newcomers,
    id ∉ group.memberAcis ∧ id ∉ group.invitees ∧ id ∉ group.requesters
  newcomers_unnamed : ∀ id ∈ steps.flatMap Step.newcomers,
    id ∉ steps.flatMap Step.entrants ∧ ∀ i, .invite i ∈ steps → i.invitee ≠ id

/-- Once the first step is done, the others still fit. -/
theorem Fits.tail {group : Snapshot} {step : Step} {rest : List Step}
    (fits : group.Fits (step :: rest)) : (step.effect group).Fits rest := by
  -- an invite that is there now or comes later is one of those that the change began with
  have invite_of : ∀ i, i ∈ (step.effect group).invites ∨ .invite i ∈ rest →
      i ∈ group.invites ∨ .invite i ∈ step :: rest := by
    rintro i (now | later)
    · rcases mem_invites_effect now with old | rfl
      · exact Or.inl old
      · exact Or.inr List.mem_cons_self
    · exact Or.inr (List.mem_cons_of_mem _ later)
  -- newcomers come once
  have apart : ∀ id ∈ step.newcomers, id ∉ rest.flatMap Step.newcomers := by
    have nodup := fits.newcomers_nodup
    rw [List.flatMap_cons, List.nodup_append] at nodup
    intro id first later
    exact nodup.2.2 id first id later rfl
  have newcomer_of : ∀ id ∈ rest.flatMap Step.newcomers,
      id ∈ (step :: rest).flatMap Step.newcomers := by
    intro id later
    rw [List.flatMap_cons]
    exact List.mem_append_right _ later
  constructor
  · have named := fits.named
    simp only [List.flatMap_cons] at named
    exact ⟨fun h => named.1 (List.mem_append_right _ h),
      fun h => named.2 (List.mem_append_right _ h)⟩
  · intro i j hi hj
    exact fits.sameCiphertext i j (invite_of i hi) (invite_of j hj)
  · intro i hi requesting
    have later := List.mem_cons_of_mem step hi
    -- whoever asks now did so before or does so with this step, and no later invite is for them
    rcases mem_requesters_effect requesting with old | new
    · exact fits.invitee_not_requesting i later old
    · have newcomer : i.invitee ∈ (step :: rest).flatMap Step.newcomers := by
        rw [List.flatMap_cons]
        exact List.mem_append_left _ new
      exact (fits.newcomers_unnamed _ newcomer).2 i later rfl
  · have nodup := fits.newcomers_nodup
    rw [List.flatMap_cons, List.nodup_append] at nodup
    exact nodup.2.1
  · intro id later
    obtain ⟨notMember, notInvited, notRequesting⟩ := fits.newcomers_new id (newcomer_of id later)
    obtain ⟨notEntrant, notInvitee⟩ := fits.newcomers_unnamed id (newcomer_of id later)
    -- whoever is still to come is as new to the group as before this step
    refine ⟨?_, ?_, ?_⟩
    · intro member
      rcases mem_memberAcis_effect member with old | requested | entrant | newcomer
      · exact notMember old
      · exact notRequesting requested
      · rw [List.flatMap_cons] at notEntrant
        exact notEntrant (List.mem_append_left _ entrant)
      · exact apart id newcomer later
    · intro invited
      rcases mem_invitees_effect invited with old | ⟨i, rfl, same⟩
      · exact notInvited old
      · exact notInvitee i List.mem_cons_self same
    · intro requesting
      rcases mem_requesters_effect requesting with old | newcomer
      · exact notRequesting old
      · exact apart id newcomer later
  · intro id later
    obtain ⟨notEntrant, notInvitee⟩ := fits.newcomers_unnamed id (newcomer_of id later)
    rw [List.flatMap_cons] at notEntrant
    exact ⟨fun h => notEntrant (List.mem_append_right _ h),
      fun i hi => notInvitee i (List.mem_cons_of_mem _ hi)⟩

/-! ### What one step preserves -/

theorem standings_add_le {group : Snapshot} {member : Member} {id : Bytes}
    (once : group.standings id ≤ 1) :
    ((Step.add member).effect group).standings id ≤ 1 := by
  have invited : ((Step.add member).effect group).invitees.count id ≤ group.invitees.count id :=
    (List.filter_sublist.map _).count_le id
  have requested : (group.requesters.filter (member.aci != ·)).count id ≤ _ :=
    List.filter_sublist.count_le id
  simp only [standings, memberAcis_effect, requesters_effect, Step.onAcis, Step.onRequesters] at *
  by_cases same : member.aci = id
  · subst same
    -- whoever is added loses their invite and their request
    have notInvited : ((Step.add member).effect group).invitees.count member.aci = 0 := by
      apply List.count_eq_zero.2
      intro mem
      obtain ⟨invite, kept, same⟩ := List.mem_map.1 mem
      simpa [same] using List.of_mem_filter kept
    have notRequesting : (group.requesters.filter (member.aci != ·)).count member.aci = 0 := by
      apply List.count_eq_zero.2
      intro mem
      simpa using List.of_mem_filter mem
    split
    · omega
    · rename_i absent
      rw [List.count_append, List.count_eq_zero.2 absent, List.count_singleton_self]
      omega
  · -- whoever else there is has no more than before
    have other : [member.aci].count id = 0 := List.count_eq_zero.2 (by simpa using Ne.symm same)
    split
    · omega
    · rw [List.count_append]
      omega

theorem standings_accept_le {group : Snapshot} {member : Member} {id : Bytes}
    (ready : (Step.accept member).ready group) (once : group.standings id ≤ 1) :
    ((Step.accept member).effect group).standings id ≤ 1 := by
  have invited : ((Step.accept member).effect group).invitees = group.invitees.erase member.aci :=
    map_eraseP_key _ _ _
  simp only [standings, memberAcis_effect, requesters_effect, Step.onAcis, Step.onRequesters,
    invited, List.count_append, List.count_erase, List.count_singleton] at *
  by_cases same : member.aci = id
  · have present : 0 < group.invitees.count id := List.count_pos_iff.2 (same ▸ ready)
    simp only [same, beq_self_eq_true, if_true]
    omega
  · simp only [beq_eq_false_iff_ne.2 same, Bool.false_eq_true, if_false]
    omega

theorem standings_approve_le {group : Snapshot} {revision : UInt32} {entry : Approval} {id : Bytes}
    (once : group.standings id ≤ 1) :
    ((Step.approve revision entry).effect group).standings id ≤ 1 := by
  have invited : ((Step.approve revision entry).effect group).invitees = group.invitees := rfl
  simp only [standings, memberAcis_effect, requesters_effect, Step.onAcis, Step.onRequesters,
    invited, List.count_append, List.count_erase] at *
  by_cases same : entry.aci = id
  · split
    · -- the request goes as the member comes, so the count stays the same
      rename_i requesting
      have present : 0 < group.requesters.count id := List.count_pos_iff.2 (same ▸ requesting)
      simp only [same, List.count_singleton_self, beq_self_eq_true, if_true]
      omega
    · simp only [List.count_nil]
      omega
  · have other : [entry.aci].count id = 0 := List.count_eq_zero.2 (by simpa using Ne.symm same)
    split
    · omega
    · simp only [List.count_nil]
      omega

/-- Whoever comes in new, on top of those there, stands in the group once. -/
theorem standings_newcomer_le {group next : Snapshot} {newcomer id : Bytes}
    (fresh : newcomer ∉ group.memberAcis ∧ newcomer ∉ group.invitees ∧ newcomer ∉ group.requesters)
    (grown : next.standings id ≤ group.standings id + [newcomer].count id)
    (once : group.standings id ≤ 1) : next.standings id ≤ 1 := by
  by_cases same : newcomer = id
  · subst same
    have none : group.standings newcomer = 0 := by
      rw [standings, List.count_eq_zero.2 fresh.1, List.count_eq_zero.2 fresh.2.1,
        List.count_eq_zero.2 fresh.2.2]
    rw [List.count_singleton_self] at grown
    omega
  · rw [List.count_eq_zero.2 (by simpa using Ne.symm same)] at grown
    omega

/-- A step that fits lets nobody stand in the group twice. -/
theorem standings_effect_le {group : Snapshot} {step : Step} {rest : List Step}
    (fits : group.Fits (step :: rest)) (ready : step.ready group) {id : Bytes} (named : id ≠ [])
    (once : group.standings id ≤ 1) : (step.effect group).standings id ≤ 1 := by
  have newcomer : ∀ new ∈ step.newcomers,
      new ∉ group.memberAcis ∧ new ∉ group.invitees ∧ new ∉ group.requesters := by
    intro new hnew
    apply fits.newcomers_new
    rw [List.flatMap_cons]
    exact List.mem_append_left _ hnew
  -- whoever comes in gives up an invite or a request, or is new; all other steps only take away
  cases step with
  | add member => exact standings_add_le once
  | accept member => exact standings_accept_le ready once
  | approve revision entry => exact standings_approve_le once
  | remove aci =>
    have members := (List.erase_sublist (a := aci) (l := group.memberAcis)).count_le id
    simp only [standings, memberAcis_effect] at *
    exact Nat.le_trans (Nat.add_le_add_right (Nat.add_le_add_right members _) _) once
  | changeRole entry =>
    simp only [standings, memberAcis_effect] at *
    exact once
  | changeProfileKey entry =>
    simp only [standings, memberAcis_effect] at *
    exact once
  | revoke entry =>
    have invited : ((Step.revoke entry).effect group).invitees.count id ≤ group.invitees.count id :=
      (List.eraseP_sublist.map _).count_le id
    simp only [standings] at *
    exact Nat.le_trans (Nat.add_le_add_right (Nat.add_le_add_left invited _) _) once
  | refuse aci =>
    have requests := (List.erase_sublist (a := aci) (l := group.requesters)).count_le id
    simp only [standings, requesters_effect] at *
    exact Nat.le_trans (Nat.add_le_add_left requests _) once
  | invite entry =>
    by_cases known : entry.ciphertext ∈ group.ciphertexts
    · have same : ((Step.invite entry).effect group).invites = group.invites :=
        if_pos (any_key_iff.2 known)
      simp only [standings, invitees, same] at *
      exact once
    · have grown : ((Step.invite entry).effect group).invitees =
          group.invitees ++ [entry.invitee] := by
        have made : ((Step.invite entry).effect group).invites = group.invites ++ [entry] :=
          if_neg fun h => known (any_key_iff.1 h)
        rw [invitees, made, List.map_append]
        rfl
      -- an invitee with an invite already would have it under the same ciphertext
      by_cases same : entry.invitee = id
      · have notInvited : id ∉ group.invitees := by
          intro invited
          obtain ⟨other, mem, invitee⟩ := List.mem_map.1 invited
          have ciphertext :=
            fits.sameCiphertext other entry (Or.inl mem) (Or.inr List.mem_cons_self)
            (by rw [invitee]; exact named) (invitee.trans same.symm)
          exact known (List.mem_map.2 ⟨other, mem, ciphertext⟩)
        have notMember : id ∉ group.memberAcis := same ▸ ready (same ▸ named)
        have notRequesting : id ∉ group.requesters :=
          same ▸ fits.invitee_not_requesting entry List.mem_cons_self
        exact standings_newcomer_le ⟨notMember, notInvited, notRequesting⟩
          (by simp only [standings, grown, same, List.count_append]
              simp only [memberAcis_effect, requesters_effect, Step.onAcis, Step.onRequesters]
              omega) once
      · have other : [entry.invitee].count id = 0 :=
          List.count_eq_zero.2 (by simpa using Ne.symm same)
        simp only [standings, grown, List.count_append, other] at *
        exact once
  | request entry =>
    refine standings_newcomer_le (newcomer entry.aci List.mem_cons_self) ?_ once
    simp only [standings, requesters_effect, Step.onRequesters, List.count_append]
    exact Nat.le_of_eq (Nat.add_assoc _ _ _).symm
  | acceptPni member =>
    have invited :
        ((Step.acceptPni member).effect group).invitees.count id ≤ group.invitees.count id :=
      (List.eraseP_sublist.map _).count_le id
    refine standings_newcomer_le (newcomer member.aci List.mem_cons_self) ?_ once
    simp only [standings, memberAcis_effect, requesters_effect, Step.onAcis, Step.onRequesters,
      List.count_append] at *
    omega
  | setAttributes change => exact once
  | ban entry => exact once
  | liftBan entry => exact once

theorem Named.effect {group : Snapshot} {step : Step} {rest : List Step}
    (named : group.Named) (fits : group.Fits (step :: rest)) : (step.effect group).Named := by
  have fresh := fits.named
  simp only [List.flatMap_cons, List.mem_append, not_or] at fresh
  obtain ⟨⟨entrants, -⟩, newcomers, -⟩ := fresh
  constructor
  · intro member
    rcases mem_memberAcis_effect member with old | requested | entrant | newcomer
    · exact named.members old
    · exact named.requests requested
    · exact entrants entrant
    · exact newcomers newcomer
  · intro requesting
    rcases mem_requesters_effect requesting with old | newcomer
    · exact named.requests old
    · exact newcomers newcomer

/-- No step, whatever it is about, makes an invite that is there already. -/
theorem ciphertexts_effect_nodup {group : Snapshot} (nodup : group.ciphertexts.Nodup)
    (step : Step) :
    (step.effect group).ciphertexts.Nodup := by
  cases step with
  | add member => exact (List.filter_sublist.map _).nodup nodup
  | revoke entry => exact (List.eraseP_sublist.map _).nodup nodup
  | accept member => exact (List.eraseP_sublist.map _).nodup nodup
  | acceptPni member => exact (List.eraseP_sublist.map _).nodup nodup
  | invite entry =>
    simp only [ciphertexts, Step.effect, Step.onInvites]
    split
    · exact nodup
    · rename_i unknown
      rw [List.map_append]
      apply List.Nodup.append nodup (List.nodup_singleton _)
      apply List.disjoint_singleton.2
      exact fun known => unknown (any_key_iff.2 known)
  | _ => exact nodup

/-- No step bans someone who is banned already. -/
theorem banned_effect_nodup {group : Snapshot} (nodup : group.banned.Nodup) (step : Step) :
    (step.effect group).banned.Nodup := by
  cases step with
  | liftBan entry => exact (List.eraseP_sublist.map _).nodup nodup
  | ban entry =>
    simp only [banned, Step.effect, Step.onBans]
    split
    · exact nodup
    · rename_i unknown
      rw [List.map_append]
      apply List.Nodup.append nodup (List.nodup_singleton _)
      apply List.disjoint_singleton.2
      exact fun known => unknown (any_key_iff.2 known)
  | _ => exact nodup

/-! ### What a change preserves -/

theorem OneStanding.effect {group : Snapshot} {step : Step} {rest : List Step}
    (once : group.OneStanding) (named : group.Named) (fits : group.Fits (step :: rest))
    (ready : step.ready group) : (step.effect group).OneStanding := by
  constructor
  · have members := (nodup_identities_iff named).1 once.identities
    apply (nodup_identities_iff (named.effect fits)).2
    intro id hid
    exact standings_effect_le fits ready hid (members id hid)
  · exact ciphertexts_effect_nodup once.ciphertexts step
  · exact banned_effect_nodup once.banned step

theorem OneStanding.after {steps : List Step} {group : Snapshot} (once : group.OneStanding)
    (named : group.Named) (fits : group.Fits steps) (admits : group.admits steps) :
    (group.after steps).OneStanding ∧ (group.after steps).Named := by
  induction steps generalizing group with
  | nil => exact ⟨once, named⟩
  | cons step rest ih =>
    exact ih (once.effect named fits admits.1) (named.effect fits) fits.tail admits.2

end Snapshot

namespace Change

theorem flatMap_nothing {α : Type} (entries : List α) :
    entries.flatMap (fun _ => ([] : List Bytes)) = [] :=
  List.flatMap_eq_nil_iff.2 fun _ _ => rfl

theorem newcomers_steps (change : Change) :
    change.steps.flatMap Step.newcomers =
      change.newRequests.map (·.aci) ++ change.acceptedPniInvites.map (·.aci) := by
  simp only [steps, List.flatMap_append, List.flatMap_map, Step.newcomers]
  simp [List.map_eq_flatMap, flatMap_nothing, Step.newcomers]

theorem entrants_steps (change : Change) :
    change.steps.flatMap Step.entrants =
      change.newMembers.map (·.aci) ++ change.acceptedInvites.map (·.aci) := by
  simp only [steps, List.flatMap_append, List.flatMap_map, Step.entrants]
  simp [List.map_eq_flatMap, flatMap_nothing, Step.entrants]

theorem invite_mem_steps {change : Change} {invite : Invite} :
    .invite invite ∈ change.steps ↔ invite ∈ change.newInvites := by
  simp [steps]

/-- The steps of a consistent change fit the group. -/
theorem Consistent.fits {change : Change} {group : Snapshot} (h : change.Consistent group) :
    group.Fits change.steps := by
  -- newcomers are those who ask to be let in and those who come by a phone number
  have newcomer_named : ∀ id ∈ change.steps.flatMap Step.newcomers, id ≠ [] := by
    intro id hid
    rw [newcomers_steps] at hid
    rcases List.mem_append.1 hid with hid | hid
    · obtain ⟨request, mem, rfl⟩ := List.mem_map.1 hid
      exact h.request_named request mem
    · obtain ⟨member, mem, rfl⟩ := List.mem_map.1 hid
      exact h.pniAccepted_named member mem
  constructor
  · refine ⟨?_, fun hid => newcomer_named [] hid rfl⟩
    rw [entrants_steps]
    intro hid
    rcases List.mem_append.1 hid with hid | hid
    · obtain ⟨member, mem, empty⟩ := List.mem_map.1 hid
      exact h.added_named member mem empty
    · obtain ⟨member, mem, empty⟩ := List.mem_map.1 hid
      exact h.accepted_named member mem empty
  · simp only [invite_mem_steps, ← List.mem_append]
    intro i j hi hj
    exact h.sameCiphertext i hi j hj
  · intro i hi
    exact h.invitee_not_requesting i (invite_mem_steps.1 hi)
  · rw [newcomers_steps]
    exact h.newcomers_nodup
  · intro id hid
    have named := newcomer_named id hid
    rw [newcomers_steps] at hid
    have fresh := h.newcomers_new id hid
    rw [Snapshot.mem_identities, not_or, not_or] at fresh
    exact ⟨fresh.1, fun invited => fresh.2.1 ⟨invited, named⟩, fresh.2.2⟩
  · intro id hid
    rw [newcomers_steps] at hid
    obtain ⟨notAdded, notInvited, notAccepted⟩ := h.newcomers_unnamed id hid
    rw [entrants_steps, List.mem_append, not_or]
    refine ⟨⟨notAdded, notAccepted⟩, ?_⟩
    intro i hi same
    exact notInvited (List.mem_map.2 ⟨i, invite_mem_steps.1 hi, same⟩)

end Change

namespace Snapshot

theorem OneStanding.apply {group result : Snapshot} {change : Change} (once : group.OneStanding)
    (named : group.Named) (consistent : change.Consistent group)
    (applied : group.apply change = .ok result) : result.OneStanding ∧ result.Named := by
  obtain ⟨admits, rfl⟩ := apply_eq_ok_iff.1 applied
  have fits := consistent.fits
  -- the revision is set first, and is no part of what is said
  have once : (group.atRevision change.revision).OneStanding :=
    ⟨once.identities, once.ciphertexts, once.banned⟩
  have named : (group.atRevision change.revision).Named := ⟨named.members, named.requests⟩
  have fits : (group.atRevision change.revision).Fits change.steps :=
    ⟨fits.named, fits.sameCiphertext, fits.invitee_not_requesting, fits.newcomers_nodup,
      fits.newcomers_new, fits.newcomers_unnamed⟩
  exact once.after named fits admits

/-- One standing each is kept, whatever consistent changes are made. -/
theorem oneStanding_of_reaches {group result : Snapshot} (once : group.OneStanding)
    (named : group.Named) (run : group.Reaches result) : result.OneStanding ∧ result.Named := by
  induction run with
  | start => exact ⟨once, named⟩
  | step run consistent applied ih => exact ih.1.apply ih.2 consistent applied

open Sample in
/-- An invitee is added, a stranger asks to be let in, and then is approved. -/
theorem oneStanding_after_add_and_approval :
    let start : Snapshot := { members := [administrator 1], invites := [invite 2] }
    let result : Snapshot := {
      revision := 2
      members := [administrator 1, member 2, { member 3 with joinedAt := 2 }]
      bans := [ban 4 0] }
    start.OneStanding ∧ start.Named ∧ start.Reaches result ∧ result.OneStanding ∧ result.Named := by
  intro start result
  let add : Change :=
    { revision := 1, newMembers := [member 2, member 2], newRequests := [request 3] }
  let middle : Snapshot :=
    { revision := 1, members := [administrator 1, member 2], requests := [request 3] }
  let approve : Change :=
    { revision := 2, approvedRequests := [approval 3], newBans := [ban 4 0, ban 4 1] }
  have added : start.apply add = .ok middle := by decide +kernel
  have approved : middle.apply approve = .ok result := by decide +kernel
  have addConsistent : add.Consistent start := by
    constructor <;> decide +kernel
  have approveConsistent : approve.Consistent middle := by
    constructor <;> decide +kernel
  have once : start.OneStanding := by
    constructor <;> decide +kernel
  have named : start.Named := by
    constructor <;> decide +kernel
  have run : start.Reaches result :=
    (Reaches.start.step addConsistent added).step approveConsistent approved
  exact ⟨once, named, run, oneStanding_of_reaches once named run⟩

end Snapshot

end SealedGroups
